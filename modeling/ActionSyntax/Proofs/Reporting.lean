import ActionSyntax.CommandLine
import ActionSyntax.Proofs.Termination

/-!
What the command tells about its files. It answers for several files as it does for each of them
alone, in the order of the arguments. Records and lines tell the same problems: those of a script by
where they begin, then those of what it includes. The status tells whether there are any.
-/

namespace ActionSyntax

set_option autoImplicit false

open Rules

section Sorting

/-- The problems by where they begin. Those that begin at one place keep their order. -/
structure InOrder (problems sorted : List Problem) : Prop where
  perm : sorted.Perm problems
  ordered : sorted.Pairwise fun p q => p.span.start ≤ q.span.start
  stable : ∀ start, (sorted.filter fun p => p.span.start = start) =
    problems.filter fun p => p.span.start = start

namespace Script

theorem sortedProblems_inOrder (problems : Array Problem) :
    InOrder problems.toList (sortedProblems problems).toList := by
  let le (p q : Problem) : Bool := decide (p.span.start ≤ q.span.start)
  have htrans : ∀ p q r, le p q = true → le q r = true → le p r = true := by
    intro p q r hpq hqr
    exact decide_eq_true ((of_decide_eq_true hpq).trans (of_decide_eq_true hqr))
  have htotal : ∀ p q, (le p q || le q p) = true := by
    intro p q
    simpa [le] using Nat.le_total p.span.start q.span.start
  have hperm : (problems.toList.mergeSort le).Perm problems.toList := List.mergeSort_perm _ _
  constructor
  · exact hperm
  · exact (List.pairwise_mergeSort htrans htotal _).imp of_decide_eq_true
  · intro start
    -- What begins at one place is sorted as it stands, and a stable sort keeps it.
    have hsame : (problems.toList.filter fun p => p.span.start = start).Pairwise
        fun p q => le p q = true := by
      apply List.pairwise_of_forall_mem_list
      intro p hp q hq
      have hp := of_decide_eq_true (List.mem_filter.mp hp).2
      have hq := of_decide_eq_true (List.mem_filter.mp hq).2
      exact decide_eq_true (hp.trans hq.symm).le
    have hsub := (List.sublist_mergeSort htrans htotal hsame List.filter_sublist).filter
      fun p => decide (p.span.start = start)
    simp only [List.filter_filter, Bool.and_self] at hsub
    exact (hsub.eq_of_length (hperm.filter _).length_eq.symm).symm

theorem mem_sortedProblems {problems : Array Problem} {p : Problem} :
    p ∈ (sortedProblems problems).toList ↔ p ∈ problems := by
  rw [(sortedProblems_inOrder problems).perm.mem_iff, Array.mem_toList_iff]

@[simp] theorem sortProblems_problems (s : Script) :
    s.sortProblems.problems = sortedProblems s.problems := by
  cases s
  rfl

theorem withIncluded_eq (s : Script) : s.withIncluded = s :: s.included.flatMap withIncluded := by
  have hall : ∀ included : List Script,
      withIncludedOfAll included = included.flatMap withIncluded := by
    intro included
    induction included with
    | nil => rfl
    | cons child rest ih => rw [withIncludedOfAll, ih, List.flatMap_cons]
  cases s
  rw [withIncluded, hall]

mutual

/-- Sorting reaches every script that is included, and moves none. -/
theorem withIncluded_sortProblems :
    ∀ s : Script, s.sortProblems.withIncluded = s.withIncluded.map sortProblems
  | ⟨_, _, _, _, _, _, included⟩ => by
    rw [sortProblems, withIncluded, withIncluded, List.map_cons, sortProblems,
      withIncludedOfAll_sortProblems included]

theorem withIncludedOfAll_sortProblems : ∀ included : List Script,
    withIncludedOfAll (sortProblemsOfAll included) = (withIncludedOfAll included).map sortProblems
  | [] => rfl
  | child :: rest => by
    rw [sortProblemsOfAll, withIncludedOfAll, withIncludedOfAll, List.map_append,
      withIncluded_sortProblems child, withIncludedOfAll_sortProblems rest]

end

/-- The second script is the first one with the problems in order, and so is every script that it
includes. -/
inductive Sorts : Script → Script → Prop where
  | intro {s t : Script} (path : t.path = s.path) (content : t.content = s.content)
      (valid : t.valid = s.valid) (lineStarts : t.lineStarts = s.lineStarts)
      (comments : t.comments = s.comments) (problems : InOrder s.problems.toList t.problems.toList)
      (included : List.Forall₂ Sorts s.included t.included) : Sorts s t

mutual

theorem sortProblems_sorts : ∀ s : Script, Sorts s s.sortProblems
  | ⟨_, _, _, _, problems, _, included⟩ =>
    .intro rfl rfl rfl rfl rfl (sortedProblems_inOrder problems) (sortProblemsOfAll_sorts included)

theorem sortProblemsOfAll_sorts :
    ∀ included : List Script, List.Forall₂ Sorts included (sortProblemsOfAll included)
  | [] => .nil
  | child :: rest => .cons (sortProblems_sorts child) (sortProblemsOfAll_sorts rest)

end

theorem sortedProblems_idem (problems : Array Problem) :
    sortedProblems (sortedProblems problems) = sortedProblems problems := by
  have hordered := (sortedProblems_inOrder problems).ordered
  apply Array.toList_inj.mp
  exact List.mergeSort_of_pairwise (hordered.imp decide_eq_true)

mutual

/-- Problems that are in order stay where they are. -/
theorem sortProblems_idem : ∀ s : Script, s.sortProblems.sortProblems = s.sortProblems
  | ⟨_, _, _, _, problems, _, included⟩ => by
    rw [sortProblems, sortProblems, sortedProblems_idem problems, sortProblemsOfAll_idem included]

theorem sortProblemsOfAll_idem : ∀ included : List Script,
    sortProblemsOfAll (sortProblemsOfAll included) = sortProblemsOfAll included
  | [] => rfl
  | child :: rest => by
    rw [sortProblemsOfAll, sortProblemsOfAll, sortProblems_idem child, sortProblemsOfAll_idem rest]

end

/-- A record does not depend on how the problems of a script are sorted. -/
theorem record_sortProblems (s : Script) (p : Problem) :
    Record.ofProblem s.sortProblems p = Record.ofProblem s p := by
  cases s
  rfl

end Script

end Sorting

namespace Record

/-- The record as a line of text. -/
def plain (r : Record) : String :=
  Path.fileUrl r.file ++ ":" ++ toString r.line ++ ":" ++ toString r.column ++ ": " ++
    r.severity.title ++ ": " ++ r.message

/-- The lines that report the problems of a script are its records, in their order. -/
theorem reportLines_eq (s : Script) : s.reportLines = (ofScript s).map plain := by
  unfold Script.reportLines ofScript
  rw [List.map_flatMap]
  simp only [List.map_map]
  rfl

/-- Every script tells its problems by where they begin. -/
theorem ofScript_sortProblems (s : Script) : ofScript s.sortProblems =
    s.withIncluded.flatMap fun d => (Script.sortedProblems d.problems).toList.map (ofProblem d) := by
  unfold ofScript
  rw [Script.withIncluded_sortProblems, List.flatMap_map]
  apply List.flatMap_congr
  intro d _
  rw [d.sortProblems_problems]
  exact List.map_congr_left fun p _ => d.record_sortProblems p

/-- The problems of a script come first, then those of each script that it includes. -/
theorem ofScript_sortProblems_eq (s : Script) : ofScript s.sortProblems =
    (Script.sortedProblems s.problems).toList.map (ofProblem s) ++
      s.included.flatMap fun child => ofScript child.sortProblems := by
  simp only [ofScript_sortProblems]
  rw [s.withIncluded_eq, List.flatMap_cons, List.flatMap_assoc]

/-- Sorting loses no problem and tells none twice. -/
theorem ofScript_sortProblems_perm (s : Script) : (ofScript s.sortProblems).Perm (ofScript s) := by
  rw [ofScript_sortProblems]
  apply List.Perm.flatMap_left
  intro d _
  exact (Script.sortedProblems_inOrder d.problems).perm.map _

/-- In the whole tree of scripts the problems of each one are put in order, those that begin at one
place as they came, and nothing else changes. Once is enough. The records are then those of the
script in this order and after them those of each script that it includes, all that there were. -/
theorem sortProblems_records (s : Script) :
    Script.Sorts s s.sortProblems ∧
    s.sortProblems.sortProblems = s.sortProblems ∧
    ofScript s.sortProblems = s.sortProblems.problems.toList.map (ofProblem s) ++
      s.included.flatMap (fun child => ofScript child.sortProblems) ∧
    (ofScript s.sortProblems).Perm (ofScript s) := by
  refine ⟨s.sortProblems_sorts, s.sortProblems_idem, ?_, ofScript_sortProblems_perm s⟩
  rw [s.sortProblems_problems]
  exact ofScript_sortProblems_eq s

theorem mem_ofScript_sortProblems {s : Script} {r : Record} : r ∈ ofScript s.sortProblems ↔
    ∃ d ∈ s.withIncluded, ∃ p ∈ d.problems, r = ofProblem d p := by
  rw [ofScript_sortProblems]
  simp only [List.mem_flatMap, List.mem_map, Script.mem_sortedProblems, eq_comm]

end Record

/-- Some problem has been found in the script or in one that it includes. -/
def Script.Faulty (s : Script) : Prop := ∃ d ∈ s.withIncluded, ∃ p, p ∈ d.problems

namespace CommandLine

variable {host : Host} {path source : String}

namespace Mode

variable {mode : Mode}

/-- The entry point of a mode. -/
def entry : Mode → Entry
  | .program => .program
  | .statement => .statement
  | .expression => .expression true .list
  | .type => .type

theorem parse_call (mode : Mode) (p : Parser) :
    (mode.parse p).1.isSome = (p.call mode.entry).1.isSome ∧
      (mode.parse p).2 = (p.call mode.entry).2 := by
  cases mode <;> simp [parse, entry, Parser.call, Parser.parseExpression]

/-- A source in the mode can be read without using up the depth of inclusions. -/
def Finishes (mode : Mode) (host : Host) (path source : String) : Prop :=
  (Parser.ofScript host (Script.ofSource path source)).Finishes mode.entry

/-- The script of a source that has been read in the mode. -/
def left (mode : Mode) (host : Host) (path source : String) : Script :=
  (mode.parse (Parser.ofScript host (Script.ofSource path source))).2.script

theorem left_onlyErrors : (mode.left host path source).OnlyErrors := by
  have hfirst : Strides (ParserState.ofScript (Script.ofSource path source))
      (Parser.ofScript host (Script.ofSource path source)).state := by
    rw [Parser.ofScript_state]
    exact .scan (.refl _)
  have hsound := (hfirst.walk.sound (.ofSource path source)).1
  have hcall := hfirst.trans (Parser.call_strides hsound mode.entry)
  unfold left
  rw [(mode.parse_call _).2]
  exact hcall.errors (.ofSource path source)

end Mode

namespace Checked

variable {mode : Mode}

/-- What a source is reported to have is what has been found in it. -/
theorem ofSource_records : (ofSource host mode path source).records =
    Record.ofScript (mode.left host path source).sortProblems := rfl

/-- A source that is read to its end fails just when there is a problem in it or in what it
includes. -/
theorem ofSource_failed (hfinishes : mode.Finishes host path source) :
    (ofSource host mode path source).failed = true ↔ (mode.left host path source).Faulty := by
  let p := Parser.ofScript host (Script.ofSource path source)
  have hhonest : p.script.Honest :=
    (Parser.ofScript_reaches host (Script.ofSource path source)).grows.honest
      (Script.ofSource_honest path source)
  have hleft : (p.call mode.entry).2.script.Honest := (p.call_grows mode.entry).honest hhonest
  have hanswer := hfinishes.answers hhonest
  rw [← (mode.parse_call p).1, ← (mode.parse_call p).2] at hanswer
  rw [← (mode.parse_call p).2] at hleft
  change (mode.left host path source).Honest at hleft
  change (mode.parse p).1.isSome = true ↔ (mode.left host path source).isValid = true at hanswer
  have herror : (ofSource host mode path source).records.any Record.isError = true ↔
      (mode.left host path source).Faulty := by
    rw [ofSource_records, List.any_eq_true]
    constructor
    · rintro ⟨r, hr, -⟩
      obtain ⟨d, hd, q, hq, -⟩ := Record.mem_ofScript_sortProblems.mp hr
      exact ⟨d, hd, q, hq⟩
    · rintro ⟨d, hd, q, hq⟩
      refine ⟨_, Record.mem_ofScript_sortProblems.mpr ⟨d, hd, q, hq, rfl⟩, ?_⟩
      have hsevere := Mode.left_onlyErrors d hd q hq
      simpa [Record.isError, Record.ofProblem, Problem.isWarning] using hsevere
  unfold failed
  rw [Bool.or_eq_true, herror]
  constructor
  · rintro (hnone | hfaulty)
    · -- Without a tree the script itself has a problem.
      have hnone : (mode.parse p).1.isNone = true := hnone
      have hinvalid : (mode.left host path source).isValid = false := by
        rw [← Bool.not_eq_true, ← hanswer]
        simpa using hnone
      obtain ⟨q, hq, -⟩ := hleft.mp hinvalid
      refine ⟨_, ?_, q, hq⟩
      rw [Script.withIncluded_eq]
      exact List.mem_cons_self
    · exact hfaulty
  · exact Or.inr

theorem ofSource_unfinished (h : ¬ mode.Finishes host path source) :
    (ofSource host mode path source).failed = true := by
  have hnone : (ofSource host mode path source).tree.isSome = false := by
    have hcall := Parser.call_unfinished h
    rwa [← (mode.parse_call _).1] at hcall
  unfold failed
  rw [Bool.or_eq_true]
  exact Or.inl (by simpa using hnone)

end Checked

namespace Options

variable (o : Options) (host : Host)

/-- The same command for one file alone. -/
def only (path : String) : Options := { o with files := [path] }

/-- The records of a file, none if it cannot be read. -/
def recordsOf (path : String) : List Record :=
  (Checked.ofPath? host o.modeOrDefault path).toList.flatMap Checked.records

/-- The tree of a file as text, if it is asked for. -/
def dumpOf (path : String) : String :=
  if o.dumpTree then ((Checked.ofPath? host o.modeOrDefault path).map Checked.dump).getD "" else ""

/-- A file cannot be read, or something is wrong with it. -/
def Fails (path : String) : Prop :=
  match host.readFile path with
  | none => True
  | some source => (o.modeOrDefault.left host path source).Faulty

/-- A file is read to its end, if it can be read at all. -/
def Finishes (path : String) : Prop :=
  match host.readFile path with
  | none => True
  | some source => o.modeOrDefault.Finishes host path source

variable {o host}

theorem checked_flatMap {α : Type} (f : Checked → List α) :
    ((o.checked host).filterMap id).flatMap f =
      o.files.flatMap fun path => (Checked.ofPath? host o.modeOrDefault path).toList.flatMap f := by
  unfold checked
  rw [List.filterMap_map, List.filterMap_eq_flatMap_toList, List.flatMap_assoc]
  rfl

theorem records_checked :
    records ((o.checked host).filterMap id) = o.files.flatMap (o.recordsOf host) := checked_flatMap _

theorem reportLines_checked : reportLines ((o.checked host).filterMap id) =
    o.files.flatMap fun path => (o.recordsOf host path).map Record.plain := by
  have hlines : reportLines ((o.checked host).filterMap id) =
      (records ((o.checked host).filterMap id)).map Record.plain := by
    unfold reportLines records Checked.records
    simp only [Record.reportLines_eq, List.map_flatMap]
  rw [hlines, records_checked, List.map_flatMap]

theorem dumps_checked :
    (if o.dumpTree then String.join (((o.checked host).filterMap id).map Checked.dump) else "") =
      String.join (o.files.map (o.dumpOf host)) := by
  unfold dumpOf checked
  cases o.dumpTree with
  | false =>
    induction o.files with
    | nil => rfl
    | cons path files ih => simpa using ih
  | true =>
    induction o.files with
    | nil => rfl
    | cons path files ih =>
      cases hfile : Checked.ofPath? host o.modeOrDefault path <;> simpa [hfile] using ih

theorem failed_iff (path : String) :
    ((Checked.ofPath? host o.modeOrDefault path).map Checked.failed).getD true = true ↔
      o.Fails host path ∨ ¬ o.Finishes host path := by
  unfold Fails Finishes Checked.ofPath?
  cases host.readFile path with
  | none => simp
  | some source =>
    by_cases hfinishes : o.modeOrDefault.Finishes host path source
    · simpa [hfinishes] using Checked.ofSource_failed hfinishes
    · simpa [hfinishes] using Checked.ofSource_unfinished hfinishes

/-- The status tells whether any file fails. -/
theorem run_status :
    ((o.run host).status = 1 ∧ ∃ path ∈ o.files, o.Fails host path ∨ ¬ o.Finishes host path) ∨
      (o.run host).status = 0 ∧ ∀ path ∈ o.files, ¬ o.Fails host path ∧ o.Finishes host path := by
  have hstatus : (o.run host).status =
      if (o.checked host).any fun c => (c.map Checked.failed).getD true then 1 else 0 := rfl
  rw [hstatus]
  split
  · rename_i hany
    left
    obtain ⟨c, hc, hfailed⟩ := List.any_eq_true.mp hany
    obtain ⟨path, hpath, rfl⟩ := List.mem_map.mp hc
    exact ⟨rfl, path, hpath, (failed_iff path).mp hfailed⟩
  · rename_i hnone
    right
    constructor
    · rfl
    · intro path hpath
      have hsound : ¬ (o.Fails host path ∨ ¬ o.Finishes host path) := fun hfails =>
        hnone (List.any_eq_true.mpr
          ⟨_, List.mem_map_of_mem hpath, (failed_iff path).mpr hfails⟩)
      push Not at hsound
      exact hsound

theorem run_output (o : Options) (host : Host) (h : o.formatOrDefault = .json) : (o.run host).output =
    String.join (o.files.map (o.dumpOf host)) ++
      (Record.jsonArray (o.files.flatMap (o.recordsOf host)) ++ "\n") := by
  rw [← dumps_checked, ← records_checked]
  unfold run
  simp [h]

theorem run_problemLines (o : Options) (host : Host) (h : o.formatOrDefault = .plain) : (o.run host).problemLines =
    o.files.flatMap fun path => (o.recordsOf host path).map Record.plain := by
  rw [← reportLines_checked]
  unfold run
  simp [h]

/-- Whatever the files and the mode, the command prints the array of all records of the files in the
order of the arguments, and the lines of the files one after the other, as it does for each file alone.
The records of a file and its lines tell the same problems in one order: those of the script by where
they begin, then those of each script that it includes. The status is one if a file cannot be read or
has a problem, or includes a script that has one, or if inclusions never end, and zero otherwise. -/
theorem run_concatenates (o : Options) (host : Host) :
    (o.formatOrDefault = .json →
      (∀ path, ((o.only path).run host).output =
        o.dumpOf host path ++ (Record.jsonArray (o.recordsOf host path) ++ "\n")) ∧
      (o.run host).output = String.join (o.files.map (o.dumpOf host)) ++
        (Record.jsonArray (o.files.flatMap (o.recordsOf host)) ++ "\n")) ∧
    (o.formatOrDefault = .plain →
      (∀ path, ((o.only path).run host).problemLines = (o.recordsOf host path).map Record.plain) ∧
      (o.run host).problemLines = o.files.flatMap fun path => ((o.only path).run host).problemLines) ∧
    (∀ path, o.recordsOf host path =
      match host.readFile path with
      | none => []
      | some source => Record.ofScript (o.modeOrDefault.left host path source).sortProblems) ∧
    (∀ s : Script, InOrder s.problems.toList (Script.sortedProblems s.problems).toList ∧
      Record.ofScript s.sortProblems =
        (Script.sortedProblems s.problems).toList.map (Record.ofProblem s) ++
          s.included.flatMap fun child => Record.ofScript child.sortProblems) ∧
    (((o.run host).status = 1 ∧ ∃ path ∈ o.files, o.Fails host path ∨ ¬ o.Finishes host path) ∨
      (o.run host).status = 0 ∧ ∀ path ∈ o.files, ¬ o.Fails host path ∧ o.Finishes host path) := by
  have halone : ∀ path, o.formatOrDefault = .plain →
      ((o.only path).run host).problemLines = (o.recordsOf host path).map Record.plain := by
    intro path h
    have hlines := run_problemLines (o.only path) host h
    rwa [show (o.only path).files = [path] from rfl, List.flatMap_singleton] at hlines
  refine ⟨fun h => ⟨fun path => ?_, run_output o host h⟩, fun h => ⟨fun path => halone path h, ?_⟩,
    fun path => ?_, fun s => ⟨Script.sortedProblems_inOrder _, Record.ofScript_sortProblems_eq s⟩,
    run_status⟩
  · have houtput := run_output (o.only path) host h
    rwa [show (o.only path).files = [path] from rfl, List.flatMap_singleton, List.map_singleton,
      String.join_cons, String.join_nil, String.append_empty] at houtput
  · rw [run_problemLines o host h]
    exact List.flatMap_congr fun path _ => (halone path h).symm
  · unfold recordsOf Checked.ofPath?
    cases host.readFile path with
    | none => rfl
    | some source => exact List.append_nil _

section Missing

/-- Two files, of which the first one includes a third and the second one is missing. -/
def twoFiles : Options := { files := ["/m.es", "/b.es"] }

def includingFiles : Host := Host.ofFiles [("/m.es", "include \"a\""), ("/a.es", "x y")]

/-- The only problem is in the third file, and the missing one has no records. -/
theorem run_concatenates_missing :
    (twoFiles.run includingFiles).status = 1 ∧
      (twoFiles.run includingFiles).problemLines =
        (twoFiles.recordsOf includingFiles "/m.es").map Record.plain ∧
      (twoFiles.recordsOf includingFiles "/m.es").map (fun r => (r.file, r.id)) =
        [("/a.es", .unexpected)] := by
  obtain ⟨-, hplain, hrecords, -, hstatus⟩ := run_concatenates twoFiles includingFiles
  obtain ⟨halone, hlines⟩ := hplain rfl
  refine ⟨?_, ?_, ?_⟩
  · rcases hstatus with ⟨hone, -⟩ | ⟨-, hnone⟩
    · exact hone
    · exact ((hnone "/b.es" (by decide)).1 trivial).elim
  · have hmissing : twoFiles.recordsOf includingFiles "/b.es" = [] := hrecords "/b.es"
    rw [hlines]
    simp only [twoFiles, List.flatMap_cons, List.flatMap_nil, List.append_nil]
    rw [← twoFiles, halone, halone, hmissing, List.map_nil, List.append_nil]
  · decide +kernel

end Missing

end Options

end CommandLine

end ActionSyntax
