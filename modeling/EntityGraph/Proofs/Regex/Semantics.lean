import EntityGraph.Regex.Basic
import EntityGraph.Text.Folding
import Mathlib.Data.List.Infix

/-!
What expressions without choice and groups mean: which parts a text of the syntax has, and where
in a text these match. A library that is documented by this makes literal what it escapes, compiles
what is well formed and of a size that it admits, and finds what matches.
-/

namespace EntityGraph.Regex

variable {flags : Flags}

inductive Single.Accepts : Single → Char → Prop
  | same (c : Char) : Accepts (.literal false c) c
  | folded {c d : Char} : Text.fold d = Text.fold c → Accepts (.literal true c) d
  | any (c : Char) : Accepts (.any true) c
  | inLine {c : Char} : c ≠ '\n' → Accepts (.any false) c

/-- The text of one part. A backslash makes the next character literal; a star repeats the single
character before it. -/
inductive ReadsPart (flags : Flags) : List Char → Part → Prop
  | literal {c : Char} : isMeta c = false →
      ReadsPart flags [c] (.one (.literal flags.ignoreCase c))
  | escaped {c : Char} : isMeta c = true →
      ReadsPart flags ['\\', c] (.one (.literal flags.ignoreCase c))
  | any : ReadsPart flags ['.'] (.one (.any flags.dotAll))
  | many {piece : List Char} {s : Single} : ReadsPart flags piece (.one s) →
      ReadsPart flags (piece ++ ['*']) (.many s)
  | start : ReadsPart flags ['^'] .start
  | finish : ReadsPart flags ['$'] .finish

inductive ReadsParts (flags : Flags) : List Char → List Part → Prop
  | nil : ReadsParts flags [] []
  | cons {piece rest : List Char} {part : Part} {parts : List Part} :
      ReadsPart flags piece part → ReadsParts flags rest parts →
      ReadsParts flags (piece ++ rest) (part :: parts)

def Reads (source : List Char) (parts : List Part) : Prop :=
  ∃ flags rest, ReadsParts flags rest parts ∧ source = flags.group ++ rest

theorem ReadsPart.single {piece : List Char} {part : Part} (h : ReadsPart flags piece part) :
    ReadsParts flags piece [part] := by
  have hcons := ReadsParts.cons h .nil
  rwa [List.append_nil] at hcons

theorem ReadsParts.append {source source' : List Char} {parts parts' : List Part}
    (h : ReadsParts flags source parts) (h' : ReadsParts flags source' parts') :
    ReadsParts flags (source ++ source') (parts ++ parts') := by
  induction h with
  | nil => exact h'
  | cons hpiece _ ih =>
    rw [List.append_assoc]
    exact .cons hpiece ih

/-- Parts match a text from one of its ends on. The two marks match nowhere but at the ends of
the whole text, whatever lines it has. -/
inductive Matches (text : List Char) : List Part → List Char → Prop
  | nil (end_ : List Char) : Matches text [] end_
  | one {s : Single} {c : Char} {parts : List Part} {end_ : List Char} :
      s.Accepts c → Matches text parts end_ → Matches text (.one s :: parts) (c :: end_)
  | many {s : Single} {run end_ : List Char} {parts : List Part} : (∀ c ∈ run, s.Accepts c) →
      Matches text parts end_ → Matches text (.many s :: parts) (run ++ end_)
  | start {parts : List Part} : Matches text parts text → Matches text (.start :: parts) text
  | finish {parts : List Part} : Matches text parts [] → Matches text (.finish :: parts) []

def Found (parts : List Part) (text : List Char) : Prop :=
  ∃ end_, end_ <:+ text ∧ Matches text parts end_

section Matches

variable {text end_ : List Char} {s : Single} {parts : List Part}

theorem matches_one : Matches text (.one s :: parts) end_ ↔
    ∃ c rest, s.Accepts c ∧ Matches text parts rest ∧ c :: rest = end_ := by
  constructor
  · intro h
    cases h with
    | one haccepts hrest => exact ⟨_, _, haccepts, hrest, rfl⟩
  · rintro ⟨c, rest, haccepts, hrest, rfl⟩
    exact .one haccepts hrest

/-- A repeated single takes a run of any length, none included. -/
theorem matches_many : Matches text (.many s :: parts) end_ ↔
    ∃ run rest, (∀ c ∈ run, s.Accepts c) ∧ Matches text parts rest ∧ run ++ rest = end_ := by
  constructor
  · intro h
    cases h with
    | many hrun hrest => exact ⟨_, _, hrun, hrest, rfl⟩
  · rintro ⟨run, rest, hrun, hrest, rfl⟩
    exact .many hrun hrest

theorem matches_start :
    Matches text (.start :: parts) end_ ↔ end_ = text ∧ Matches text parts text := by
  constructor
  · intro h
    cases h with
    | start hrest => exact ⟨rfl, hrest⟩
  · rintro ⟨rfl, hrest⟩
    exact .start hrest

theorem matches_finish :
    Matches text (.finish :: parts) end_ ↔ end_ = [] ∧ Matches text parts [] := by
  constructor
  · intro h
    cases h with
    | finish hrest => exact ⟨rfl, hrest⟩
  · rintro ⟨rfl, hrest⟩
    exact .finish hrest

end Matches

end Regex

open Regex

structure RegexLibrary.Documented [RegexLibrary] (fits : String → Prop) : Prop where
  /-- What is escaped is read as its characters, whatever the flags are. -/
  reads_escape (flags : Flags) (text : String) :
    ReadsParts flags (RegexLibrary.escape text).toList
      (text.toList.map fun c => .one (.literal flags.ignoreCase c))
  /-- What is well formed and fits is compiled. -/
  compiles {source : String} {parts : List Part} :
    Reads source.toList parts → fits source →
      ∃ compiled, RegexLibrary.compile? source = some compiled
  /-- What is compiled is found where it matches. -/
  isMatch_iff {source : String} {parts : List Part} {compiled : RegexLibrary.Compiled} :
    Reads source.toList parts → RegexLibrary.compile? source = some compiled →
      ∀ text : String, RegexLibrary.isMatch compiled text = true ↔ Found parts text.toList

end EntityGraph
