import EntityGraph.Proofs.Regex.Semantics
import EntityGraph.Regex.Engine

/-!
The engine is a library as documented, without limits. Reading keeps the parts that are done, and
each step of a search turns marks for the ends of a text into marks for the next part.
-/

namespace EntityGraph.Regex

variable {flags : Flags}

/-- The test of a single is what it accepts. -/
theorem accepts_iff {s : Single} {c : Char} : s.accepts c = true ↔ s.Accepts c := by
  constructor
  · intro h
    rcases s with ⟨_ | _, d⟩ | ⟨_ | _⟩
    · rw [Single.accepts, beq_iff_eq] at h
      exact h ▸ .same c
    · rw [Single.accepts, beq_iff_eq] at h
      exact .folded h
    · rw [Single.accepts, bne_iff_ne] at h
      exact .inLine h
    · exact .any c
  · intro h
    cases h with
    | same => exact beq_self_eq_true c
    | folded h => exact beq_iff_eq.mpr h
    | any => rfl
    | inLine h => exact bne_iff_ne.mpr h

theorem readChar_literal {c : Char} (h : isMeta c = false) (parts : List Part) :
    readChar flags ⟨false, parts⟩ c =
      some ⟨false, .one (.literal flags.ignoreCase c) :: parts⟩ := by
  unfold readChar
  rw [if_neg Bool.false_ne_true]
  split
  -- The characters with a meaning of their own are no literals.
  iterate 5 exact absurd h (by decide)
  rw [h, if_neg Bool.false_ne_true]

theorem readChar_escaped {c : Char} (h : isMeta c = true) (parts : List Part) :
    readChar flags ⟨true, parts⟩ c =
      some ⟨false, .one (.literal flags.ignoreCase c) :: parts⟩ := by
  unfold readChar
  rw [if_pos rfl, if_pos h]

/-- One part more is read from its text. -/
theorem foldlM_readChar_part {piece : List Char} {part : Part} (h : ReadsPart flags piece part)
    (parts : List Part) :
    piece.foldlM (readChar flags) ⟨false, parts⟩ = some ⟨false, part :: parts⟩ := by
  induction h with
  | literal h => rw [List.foldlM_cons, readChar_literal h]; rfl
  | escaped h =>
    have hbackslash : readChar flags ⟨false, parts⟩ '\\' = some ⟨true, parts⟩ := rfl
    rw [List.foldlM_cons, hbackslash, Option.bind_eq_bind, Option.bind_some, List.foldlM_cons,
      readChar_escaped h]
    rfl
  | any => rfl
  | @many piece s _ ih =>
    rw [List.foldlM_append, ih]
    rfl
  | start => rfl
  | finish => rfl

/-- The reader goes through a text that reads as parts, and piles them up. -/
theorem foldlM_readChar {source : List Char} {parts : List Part}
    (h : ReadsParts flags source parts) (done : List Part) :
    source.foldlM (readChar flags) ⟨false, done⟩ = some ⟨false, parts.reverse ++ done⟩ := by
  induction h generalizing done with
  | nil => rfl
  | @cons piece rest part parts hpiece _ ih =>
    rw [List.foldlM_append, foldlM_readChar_part hpiece]
    have hrest := ih (part :: done)
    rwa [List.append_cons, ← List.reverse_cons] at hrest

theorem ReadsPart.head {piece : List Char} {part : Part} (h : ReadsPart flags piece part) :
    ∃ c rest, piece = c :: rest ∧ c ≠ '(' := by
  induction h with
  | @literal c h =>
    refine ⟨c, [], rfl, ?_⟩
    rintro rfl
    exact absurd h (by decide)
  | many _ ih =>
    obtain ⟨c, rest, rfl, hc⟩ := ih
    exact ⟨c, rest ++ ['*'], rfl, hc⟩
  | _ => exact ⟨_, _, rfl, by decide⟩

/-- No part begins as the group of flags does, so that the flags of an expression are clear. -/
theorem readFlags_append {rest : List Char} {parts : List Part} (h : ReadsParts flags rest parts) :
    readFlags (flags.group ++ rest) = (flags, rest) := by
  rcases flags with ⟨_ | _, _ | _⟩
  · cases h with
    | nil => rfl
    | cons hpiece _ =>
      obtain ⟨c, piece, rfl, hc⟩ := hpiece.head
      rw [Flags.group, List.nil_append, readFlags.eq_4]
      all_goals
        intro rest heq
        exact hc (List.cons.inj heq).1
  all_goals rfl

theorem read?_eq {source : String} {parts : List Part} (h : Reads source.toList parts) :
    read? source = some parts := by
  obtain ⟨flags, rest, hparts, hsource⟩ := h
  rw [read?, hsource, readFlags_append hparts]
  simp [foldlM_readChar hparts]

/-- An escaped text reads as its letters. -/
theorem reads_escape (flags : Flags) (text : String) :
    ReadsParts flags (escape text).toList
      (text.toList.map fun c => .one (.literal flags.ignoreCase c)) := by
  rw [escape, String.toList_ofList]
  induction text.toList with
  | nil => exact .nil
  | cons c cs ih =>
    rw [List.flatMap_cons, List.map_cons]
    refine .cons ?_ ih
    cases hmeta : isMeta c with
    | false => exact .literal hmeta
    | true => exact .escaped hmeta

/-- Truth values for the ends of a text, the longest first: each says whether a statement is true
of its end. -/
inductive Marks (P : List Char → Prop) : List Char → List Bool → Prop
  | nil {b : Bool} : (b = true ↔ P []) → Marks P [] [b]
  | cons {c : Char} {text : List Char} {b : Bool} {marks : List Bool} :
      (b = true ↔ P (c :: text)) → Marks P text marks → Marks P (c :: text) (b :: marks)

namespace Marks

variable {P Q : List Char → Prop} {text : List Char} {marks : List Bool}

theorem head (h : Marks P text marks) : marks.headD false = true ↔ P text := by
  cases h with
  | nil hb => exact hb
  | cons hb _ => exact hb

theorem congr (hPQ : ∀ end_, P end_ ↔ Q end_) (h : Marks P text marks) : Marks Q text marks := by
  induction h with
  | nil hb => exact .nil (hb.trans (hPQ _))
  | cons hb _ ih => exact .cons (hb.trans (hPQ _)) ih

/-- Some mark is true if the statement is true of some end. -/
theorem any_iff (h : Marks P text marks) :
    marks.any id = true ↔ ∃ end_, end_ <:+ text ∧ P end_ := by
  induction h with
  | nil hb => simp [hb]
  | cons hb _ ih =>
    rw [List.any_cons, Bool.or_eq_true, ih, id, hb]
    simp only [List.suffix_cons_iff, or_and_right, exists_or, exists_eq_left]

theorem always (text : List Char) (hP : ∀ end_, P end_) :
    Marks P text (text.map (fun _ => true) ++ [true]) := by
  induction text with
  | nil => exact .nil (by simp [hP])
  | cons c text ih => exact .cons (by simp [hP]) ih

/-- The statement may be true of ends that are longer than those at hand. -/
theorem never (h : Marks P text marks) (hQ : ∀ end_, end_ <:+ text → ¬ Q end_) :
    Marks Q text (marks.map fun _ => false) := by
  induction h with
  | nil _ => exact .nil (by simp [hQ])
  | @cons c text b marks _ _ ih =>
    refine .cons (by simp [hQ]) (ih fun end_ hend => ?_)
    exact hQ end_ (hend.trans (List.suffix_cons c text))

theorem keepFirst (h : Marks P text marks) :
    Marks (fun end_ => end_ = text ∧ P text) text (keepFirst marks) := by
  cases h with
  | nil hb => exact .nil (by simp [hb])
  | @cons c text b marks hb hrest =>
    refine .cons (by simp [hb]) (hrest.never ?_)
    rintro end_ hend ⟨rfl, -⟩
    exact absurd hend.length_le (Nat.not_succ_le_self _)

theorem keepLast (h : Marks P text marks) :
    Marks (fun end_ => end_ = [] ∧ P []) text (keepLast marks) := by
  induction h with
  | nil hb => exact .nil (by simp [hb])
  | cons _ hrest ih =>
    cases hrest <;> exact .cons (by simp) ih

/-- Marks of the ends from which a run of accepted letters leads on. -/
theorem afterRun {accepts : Char → Bool} (h : Marks P text marks) :
    Marks (fun end_ => ∃ run rest, (∀ c ∈ run, accepts c = true) ∧ P rest ∧
      run ++ rest = end_) text (afterRun accepts text marks) := by
  induction h with
  | nil hb =>
    refine .nil ?_
    rw [hb]
    constructor
    · exact fun hP => ⟨[], [], by simp, hP, rfl⟩
    · rintro ⟨run, rest, _, hP, hnil⟩
      rw [(List.append_eq_nil_iff.mp hnil).2] at hP
      exact hP
  | @cons c text b marks hb _ ih =>
    refine .cons ?_ ih
    rw [Bool.or_eq_true, Bool.and_eq_true, hb, ih.head]
    -- A run is empty, or it begins with the first character and goes on from there.
    constructor
    · rintro (hP | ⟨hc, run, rest, hrun, hP, rfl⟩)
      · exact ⟨[], _, by simp, hP, rfl⟩
      · exact ⟨c :: run, rest, List.forall_mem_cons.mpr ⟨hc, hrun⟩, hP, rfl⟩
    · rintro ⟨run, rest, hrun, hP, heq⟩
      cases run with
      | nil => exact Or.inl (heq ▸ hP)
      | cons d run =>
        obtain ⟨rfl, rfl⟩ := List.cons.inj heq
        obtain ⟨hc, hrun⟩ := List.forall_mem_cons.mp hrun
        exact Or.inr ⟨hc, run, rest, hrun, hP, rfl⟩

/-- Marks of the ends from which one accepted letter leads on. -/
theorem afterChar {accepts : Char → Bool} (h : Marks P text marks) :
    Marks (fun end_ => ∃ c rest, accepts c = true ∧ P rest ∧ c :: rest = end_) text
      (afterChar accepts text marks) := by
  induction h with
  | nil _ => exact .nil (by simp)
  | @cons c text b marks hb hrest ih =>
    refine .cons ?_ ih
    rw [Bool.and_eq_true, hrest.head]
    constructor
    · rintro ⟨haccepts, hP⟩
      exact ⟨c, text, haccepts, hP, rfl⟩
    · rintro ⟨d, rest, haccepts, hP, heq⟩
      obtain ⟨rfl, rfl⟩ := List.cons.inj heq
      exact ⟨haccepts, hP⟩

end Marks

/-- The ends that a search marks are those from which the parts match. -/
theorem marks_matchEnds (text : List Char) (parts : List Part) :
    Marks (Matches text parts) text (matchEnds text parts) := by
  induction parts with
  | nil => exact Marks.always text .nil
  | cons part parts ih =>
    cases part with
    | one s =>
      refine ih.afterChar.congr fun end_ => ?_
      simp only [matches_one, accepts_iff]
    | many s =>
      refine ih.afterRun.congr fun end_ => ?_
      simp only [matches_many, accepts_iff]
    | start => exact ih.keepFirst.congr fun end_ => matches_start.symm
    | finish => exact ih.keepLast.congr fun end_ => matches_finish.symm

/-- The engine is as documented, and it has no limits. -/
theorem documented_engine : RegexLibrary.Documented (fun _ => True) where
  reads_escape := reads_escape
  compiles h _ := ⟨_, read?_eq h⟩
  isMatch_iff h hcompiled text := by
    obtain rfl : _ = _ := Option.some.inj ((read?_eq h).symm.trans hcompiled)
    exact (marks_matchEnds text.toList _).any_iff

end EntityGraph.Regex
