import ActionSyntax.Proofs.Escapes
import ActionSyntax.Proofs.Termination

/-!
Sessions: parsers of one script, whose entry points are called in any order. A call that finishes
answers with a tree just when it leaves a valid script. One that does not finish has come to files
that include each other deeper than the host of the parser allows, and does not answer.
-/

namespace ActionSyntax

set_option autoImplicit false

open Rules
open Relation (TransGen)

/-- Parsers of one script. -/
structure Session where
  script : Script
  parsers : List Parser

namespace Session

/-- Makes another parser, which reads the first token again. -/
def openParser (s : Session) (host : Host) : Session :=
  let p := Parser.ofScript host s.script
  { script := p.script, parsers := s.parsers ++ [p] }

/-- Calls an entry point of a parser, which goes on where it stands. -/
def call (s : Session) (i : Nat) (p : Parser) (entry : Entry) : Option Tree × Session :=
  let (answer, p) := (p.withScript s.script).call entry
  (answer, { script := p.script, parsers := s.parsers.set i p })

/-- The second session comes out of the first one by making parsers and calling entry points. -/
inductive Leads : Session → Session → Prop where
  | refl (s : Session) : Leads s s
  | openParser {s t : Session} (h : Leads s t) (host : Host) : Leads s (t.openParser host)
  | call {s t : Session} (h : Leads s t) {i : Nat} {p : Parser} (hp : t.parsers[i]? = some p)
      (entry : Entry) : Leads s (t.call i p entry).2

/-- A session with a script that nothing has been read of. -/
def ofSource (path source : String) : Session := ⟨Script.ofSource path source, []⟩

end Session

namespace Setting

/-- The depth of a host is used up only by a file from which on inclusions go as deep. -/
def ofHost (host : Host) : Setting where
  readFile := host.readFile
  excuse := ∃ path, EntersDeep host.readFile host.includeDepth
    (Script.ofSource path ((host.readFile path).getD ""))

theorem ofHost_sound (host : Host) (n : Nat) :
    (ofHost host).Sound n (level host.readFile (includeAt host.readFile host.includeDepth) n) := by
  refine level_sound (S := ofHost host) ?_ n
  intro context path s
  have hsplices : (lenient host.readFile).Splices s ((ofHost host).file path)
      (includeAt host.readFile host.includeDepth context ((ofHost host).file path) s) :=
    includeAt_splicing (S := .lenient host.readFile) trivial host.includeDepth context path s
  show (ofHost host).Splices s ((ofHost host).file path)
    (includeAt host.readFile host.includeDepth context ((ofHost host).file path) s)
  cases hread : includeAt host.readFile host.includeDepth context ((ofHost host).file path) s with
  | ok value t =>
    rw [hread] at hsplices
    exact hsplices
  | error stop t =>
    rw [hread] at hsplices
    obtain ⟨rfl, hreaches, -⟩ := hsplices
    have hup : GivesUp host.readFile host.includeDepth ((ofHost host).file path) := ⟨context, s, t, hread⟩
    exact ⟨rfl, hreaches, path, hup.entersDeep⟩

end Setting

namespace Parser

variable {p : Parser} {entry : Entry}

/-- A call that has no more tokens before it than its text has characters uses up nothing but the depth
of inclusions. -/
theorem entersDeep_of_unfinished (hleft : p.script.isValid = true → p.state.left ≤ p.script.content.length)
    (h : ¬ p.Finishes entry) : ∃ path, EntersDeep p.host.readFile p.host.includeDepth
      (Script.ofSource path ((p.host.readFile path).getD "")) := by
  obtain ⟨hvalid, hread⟩ := Classical.not_imp.mp h
  obtain ⟨t, hread⟩ := Classical.not_forall.mp hread
  have hready : (Setting.ofHost p.host).Ready (levelFor p.script) p.state :=
    Or.inr (Nat.lt_of_le_of_lt (hleft hvalid) (Nat.lt_add_of_pos_right (by decide)))
  have hends : (Setting.ofHost p.host).Ends never p.state
      (entry.read (ofHost p.host p.script) p.state) :=
    entry.read_reads (Setting.ofHost_sound p.host _) p.state hready
  rw [Classical.not_not.mp hread] at hends
  exact hends.2

end Parser

namespace Session

/-- What holds of every session that a script is read in. -/
structure Kept (origin : Script) (s : Session) : Prop where
  grown : origin.Grows s.script
  left : ∀ p ∈ s.parsers, s.script.isValid = true → p.state.left ≤ origin.content.length

variable {origin : Script} {s t : Session}

theorem Kept.openParser (h : Kept origin s) (host : Host) :
    s.script.Grows (s.openParser host).script ∧ Kept origin (s.openParser host) := by
  obtain ⟨k, hreach⟩ := Parser.ofScript_reaches host s.script
  have hgrows : s.script.Grows (s.openParser host).script := hreach.grows
  refine ⟨hgrows, h.grown.trans hgrows, fun p hp hvalid => ?_⟩
  rcases List.mem_append.mp hp with hp | hp
  · exact h.left p hp (hgrows.valid hvalid)
  · rw [List.mem_singleton.mp hp, ← h.grown.content]
    exact hreach.left_le hvalid

theorem Kept.call (h : Kept origin s) {i : Nat} {p : Parser} (hp : s.parsers[i]? = some p)
    (entry : Entry) :
    s.script.Grows (s.call i p entry).2.script ∧ Kept origin (s.call i p entry).2 := by
  obtain ⟨stop, k, hreach⟩ := (p.withScript s.script).call_reaches entry
  have hgrows : s.script.Grows (s.call i p entry).2.script := hreach.grows
  refine ⟨hgrows, h.grown.trans hgrows, fun q hq hvalid => ?_⟩
  rcases List.mem_or_eq_of_mem_set hq with hq | rfl
  · exact h.left q hq (hgrows.valid hvalid)
  · exact Nat.le_trans (hreach.left_le hvalid)
      (h.left p (List.mem_of_getElem? hp) (hgrows.valid hvalid))

/-- Whatever is called, the script grows and no parser has more tokens before it than its text has
characters. -/
theorem Leads.kept (hst : s.Leads t) (h : Kept origin s) :
    s.script.Grows t.script ∧ Kept origin t := by
  induction hst with
  | refl => exact ⟨.refl _, h⟩
  | openParser _ host ih =>
    obtain ⟨hgrows, hkept⟩ := ih
    exact (hkept.openParser host).imp_left hgrows.trans
  | call _ hp entry ih =>
    obtain ⟨hgrows, hkept⟩ := ih
    exact (hkept.call hp entry).imp_left hgrows.trans

theorem ofSource_kept (path source : String) :
    Kept (Script.ofSource path source) (ofSource path source) where
  grown := Script.Grows.refl (Script.ofSource path source)
  left := fun _ hp => absurd hp List.not_mem_nil

/-- Calls of the entry points of any parsers, in any order, only add to the problems of their script,
which is valid as long as these are warnings. Every call that finishes answers with a tree just when it
leaves a valid script. One that does not finish answers nothing, and its host has a file from which on
inclusions go as deep as it allows; where the files that a parser comes to are finitely many, none of
which comes to itself, and inclusions may go as deep as there are files, it finishes. Every problem that
escapes some part of the grammar is in the script. -/
theorem session_accounts {path source : String} {s t : Session}
    (hs : (ofSource path source).Leads s) (hst : s.Leads t) :
    (s.script.problems.toList <+: t.script.problems.toList ∧
      (s.script.isValid = false → t.script.isValid = false) ∧
      (s.script.isValid = false ↔ ∃ p ∈ s.script.problems, p.isWarning = false)) ∧
    (∀ i p entry, s.parsers[i]? = some p →
      ((p.withScript s.script).Finishes entry →
        ((s.call i p entry).1.isSome ↔ (s.call i p entry).2.script.isValid = true)) ∧
      (¬ (p.withScript s.script).Finishes entry → (s.call i p entry).1.isSome = false ∧
        ∃ file, EntersDeep p.host.readFile p.host.includeDepth
          (Script.ofSource file ((p.host.readFile file).getD "")))) ∧
    (∀ (host : Host) (entry : Entry)
      (hfinite : {child | entry.ComesTo host.readFile (Script.ofSource path source) child}.Finite),
      (∀ child, entry.ComesTo host.readFile (Script.ofSource path source) child →
        ¬ TransGen (Enters host.readFile) child child) →
      hfinite.toFinset.card ≤ host.includeDepth →
        (Parser.ofScript host (Script.ofSource path source)).Finishes entry) ∧
    ∀ (host : Host) (n : Nat),
      (Rules.level host.readFile (Rules.includeAt host.readFile host.includeDepth) n).AllRecord := by
  have hhonest := Script.ofSource_honest path source
  obtain ⟨hgrown, hkept⟩ := hs.kept (ofSource_kept path source)
  have hgrows := (hst.kept hkept).1
  have hhonest' : s.script.Honest := hgrown.honest hhonest
  refine ⟨⟨hgrows.problems, fun hinvalid => ?_, hhonest'⟩, fun i p entry hp => ⟨fun hfinishes => ?_,
    fun hunfinished => ⟨Parser.call_unfinished hunfinished, ?_⟩⟩, ?_, ?_⟩
  · exact Bool.eq_false_iff.mpr fun ht => by simp [hgrows.valid ht] at hinvalid
  · exact hfinishes.answers hhonest'
  · refine Parser.entersDeep_of_unfinished (p := p.withScript s.script) (fun hvalid => ?_) hunfinished
    have hcontent : s.script.content = (Script.ofSource path source).content := hgrown.content
    show p.state.left ≤ s.script.content.length
    rw [hcontent]
    exact hkept.left p (List.mem_of_getElem? hp) hvalid
  · exact fun host entry hfinite hacyclic => Parser.finishes_of_acyclic hfinite hacyclic
  · exact fun host n => Rules.level_records host.readFile host.includeDepth n

/-- The only call of the only parser of a short script. -/
theorem session_accounts_name :
    let s := (ofSource "main.es" "x").openParser (Host.ofFiles [])
    let p := Parser.ofScript (Host.ofFiles []) (Script.ofSource "main.es" "x")
    s.script.problems.toList <+: (s.call 0 p .program).2.script.problems.toList ∧
      ((s.call 0 p .program).1.isSome ↔ (s.call 0 p .program).2.script.isValid = true) := by
  intro s p
  have h := session_accounts (.openParser (.refl (ofSource "main.es" "x")) (Host.ofFiles []))
    (.call (.refl s) (i := 0) (p := p) rfl .program)
  refine ⟨h.1.1, (h.2.1 0 p .program rfl).1 (Classical.byContradiction fun hunfinished => ?_)⟩
  -- Without files, nothing but empty texts can be included.
  obtain ⟨-, file, child, henters, -⟩ := (h.2.1 0 p .program rfl).2 hunfinished
  exact not_enters_empty henters

end Session

end ActionSyntax
