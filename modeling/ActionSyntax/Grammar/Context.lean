/-!
What surrounds a statement, as far as it decides what may stand there.
-/

namespace ActionSyntax

set_option autoImplicit false

/-- The kind of block that holds a statement directly. -/
inductive Container where
  | plain
  | topLevel
  | package
  | namespace
  | class (name : String)
  | interface
  | enum
deriving DecidableEq, Repr, Inhabited

structure Context where
  container : Container := .plain
  labels : List String := []
  inIteration : Bool := false
  inSwitch : Bool := false
  isConstructor : Bool := false
deriving DecidableEq, Repr, Inhabited

namespace Context

def ofContainer (container : Container) : Context := { container }

def functionBody (isConstructor : Bool) : Context := { isConstructor }

/-- The context of a nested statement or block: jumps still see what is around. -/
def nested (c : Context) : Context := { c with container := .plain, isConstructor := false }

def withLabel (c : Context) (label : String) : Context :=
  { c.nested with labels := label :: c.labels }

def loopBody (c : Context) : Context := { c.nested with inIteration := true }

def switchBody (c : Context) : Context := { c.nested with inSwitch := true }

def hasLabel (c : Context) (label : String) : Bool := c.labels.contains label

def className? (c : Context) : Option String :=
  match c.container with
  | .class name => some name
  | _ => none

def isInterface (c : Context) : Bool := c.container == .interface

def isEnum (c : Context) : Bool := c.container == .enum

def allowsNamespaces (c : Context) : Bool :=
  match c.container with
  | .package | .namespace | .topLevel => true
  | _ => false

def allowsTypeDefinitions (c : Context) : Bool := c.container != .plain

def allowsProxies (c : Context) : Bool :=
  match c.container with
  | .class _ | .enum => true
  | _ => false

end Context

end ActionSyntax
