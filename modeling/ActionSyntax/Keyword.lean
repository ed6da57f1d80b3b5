/-!
Words that are never names. Other words with a meaning, such as `get` or `static`, are names that
some positions read in a special way.
-/

namespace ActionSyntax.Keyword

set_option autoImplicit false

/-- The reserved words, shorter ones first. -/
def reserved : List String :=
  ["as", "do", "if", "in", "is",
   "for", "new", "try", "use", "var",
   "case", "else", "null", "this", "true", "void", "with",
   "await", "break", "catch", "class", "const", "false", "super", "throw", "where", "while",
   "yield",
   "delete", "import", "public", "return", "switch", "throws", "typeof",
   "default", "extends", "finally", "package", "private",
   "continue", "function", "internal",
   "interface", "protected",
   "implements"]

def isReserved (word : String) : Bool := reserved.contains word

theorem isReserved_iff {word : String} : isReserved word = true ↔ word ∈ reserved := by
  simp [isReserved]

end ActionSyntax.Keyword
