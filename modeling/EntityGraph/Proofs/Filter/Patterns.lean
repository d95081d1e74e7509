import EntityGraph.Filter.Match
import EntityGraph.Proofs.Regex.Engine
import Mathlib.Data.List.Forall2

/-!
Patterns as divisions of texts. Main statement: with a library of regular expressions that is as
documented, a pattern holds of a text when the text divides into consecutive pieces, one for each
character of the pattern: any run for `%`, any one character for `_`, and for every other character
one that differs from it in case alone.
-/

namespace EntityGraph

namespace Filter

open Text (fold)
open Regex

inductive StandsFor : Char → List Char → Prop
  | run (piece : List Char) : StandsFor '%' piece
  | one (c : Char) : StandsFor '_' [c]
  | same {p c : Char} : p ≠ '%' → p ≠ '_' → fold c = fold p → StandsFor p [c]

def Divides (pattern text : List Char) : Prop :=
  ∃ pieces, List.Forall₂ StandsFor pattern pieces ∧ pieces.flatten = text

theorem divides_nil {text : List Char} : Divides [] text ↔ text = [] := by
  constructor
  · rintro ⟨pieces, hpieces, rfl⟩
    rw [List.forall₂_nil_left_iff.mp hpieces, List.flatten_nil]
  · rintro rfl
    exact ⟨[], .nil, rfl⟩

/-- The first character of a pattern takes a piece from the front. -/
theorem divides_cons {p : Char} {pattern text : List Char} : Divides (p :: pattern) text ↔
    ∃ piece rest, StandsFor p piece ∧ Divides pattern rest ∧ piece ++ rest = text := by
  constructor
  · rintro ⟨pieces, hpieces, rfl⟩
    obtain ⟨piece, others, hpiece, hothers, rfl⟩ := List.forall₂_cons_left_iff.mp hpieces
    exact ⟨piece, others.flatten, hpiece, ⟨others, hothers, rfl⟩, rfl⟩
  · rintro ⟨piece, rest, hpiece, ⟨others, hothers, rfl⟩, rfl⟩
    exact ⟨piece :: others, .cons hpiece hothers, rfl⟩

theorem standsFor_one {piece : List Char} : StandsFor '_' piece ↔ ∃ c, piece = [c] := by
  constructor
  · intro h
    cases h with
    | one c => exact ⟨c, rfl⟩
    | same _ hne _ => exact absurd rfl hne
  · rintro ⟨c, rfl⟩
    exact .one c

theorem standsFor_same {p : Char} (hrun : p ≠ '%') (hone : p ≠ '_') {piece : List Char} :
    StandsFor p piece ↔ ∃ c, piece = [c] ∧ fold c = fold p := by
  constructor
  · intro h
    cases h with
    | run => exact absurd rfl hrun
    | one => exact absurd rfl hone
    | same _ _ hfold => exact ⟨_, rfl, hfold⟩
  · rintro ⟨c, rfl, hfold⟩
    exact .same hrun hone hfold

/-- Without `%` and `_` a pattern stands for the texts that differ from it in case alone. -/
theorem divides_iff_of_literal {pattern : List Char} (hrun : '%' ∉ pattern) (hone : '_' ∉ pattern)
    (text : List Char) : Divides pattern text ↔ text.map fold = pattern.map fold := by
  induction pattern generalizing text with
  | nil => rw [divides_nil, List.map_nil, List.map_eq_nil_iff]
  | cons p pattern ih =>
    rw [List.mem_cons, not_or] at hrun hone
    simp only [divides_cons, standsFor_same (Ne.symm hrun.1) (Ne.symm hone.1),
      ih hrun.2 hone.2, List.map_cons, List.map_eq_cons_iff]
    constructor
    · rintro ⟨_, rest, ⟨c, rfl, hfold⟩, hrest, rfl⟩
      exact ⟨c, rest, rfl, hfold, hrest⟩
    · rintro ⟨c, rest, rfl, hfold, hrest⟩
      exact ⟨[c], rest, ⟨c, rfl, hfold⟩, hrest, rfl⟩

def likePart : Char → Part
  | '%' => .many (.any true)
  | '_' => .one (.any true)
  | c => .one (.literal true c)

/-- A part matches at the head of a text what its character stands for. -/
theorem matches_likePart (p : Char) {text end_ : List Char} {parts : List Part} :
    Matches text (likePart p :: parts) end_ ↔
      ∃ piece rest, StandsFor p piece ∧ Matches text parts rest ∧ piece ++ rest = end_ := by
  unfold likePart
  split
  · -- Any run, any one character, and the character itself up to case.
    rw [matches_many]
    refine exists₂_congr fun run rest => and_congr_left' ?_
    exact iff_of_true (fun c _ => .any c) (.run run)
  · simp only [matches_one, standsFor_one]
    constructor
    · rintro ⟨c, rest, _, hrest, rfl⟩
      exact ⟨[c], rest, ⟨c, rfl⟩, hrest, rfl⟩
    · rintro ⟨_, rest, ⟨c, rfl⟩, hrest, rfl⟩
      exact ⟨c, rest, .any c, hrest, rfl⟩
  · next hrun hone =>
    simp only [matches_one, standsFor_same hrun hone]
    constructor
    · rintro ⟨c, rest, haccepts, hrest, rfl⟩
      cases haccepts with
      | folded hfold => exact ⟨[c], rest, ⟨c, rfl, hfold⟩, hrest, rfl⟩
    · rintro ⟨_, rest, ⟨c, rfl, hfold⟩, hrest, rfl⟩
      exact ⟨c, rest, .folded hfold, hrest, rfl⟩

/-- Up to the end of the text, the parts of a pattern match the ends that divide for it. -/
theorem matches_likeParts (pattern : List Char) {text end_ : List Char} :
    Matches text (pattern.map likePart ++ [.finish]) end_ ↔ Divides pattern end_ := by
  induction pattern generalizing end_ with
  | nil =>
    rw [List.map_nil, List.nil_append, matches_finish, divides_nil]
    exact and_iff_left (.nil [])
  | cons p pattern ih =>
    rw [List.map_cons, List.cons_append, matches_likePart, divides_cons]
    simp only [ih]

/-- Between the two anchors the parts of a pattern find exactly the texts that it divides. -/
theorem found_likeParts {pattern text : List Char} :
    Found (.start :: (pattern.map likePart ++ [.finish])) text ↔ Divides pattern text := by
  simp only [Found, matches_start, matches_likeParts]
  constructor
  · rintro ⟨_, _, rfl, hdivides⟩
    exact hdivides
  · exact fun hdivides => ⟨text, List.suffix_rfl, rfl, hdivides⟩

section Library

variable [RegexLibrary]

/-- The expression letter by letter: the flags, an anchor, a piece for each character, an anchor. -/
theorem toList_likeSource (pattern : String) : (likeSource pattern).toList =
    Flags.group ⟨true, true⟩ ++
      (['^'] ++ (pattern.toList.flatMap (fun c => (likePiece c).toList) ++ ['$'])) := by
  have hfold : ∀ (cs : List Char) (source : String),
      (cs.foldl (fun source c => source ++ likePiece c) source).toList =
        source.toList ++ cs.flatMap (fun c => (likePiece c).toList) := by
    intro cs
    induction cs with
    | nil => simp
    | cons c cs ih => simp [ih]
  rw [likeSource, String.toList_append, hfold]
  simp [Flags.group]

/-- A pattern that compiles is asked of the text that the value shows. -/
theorem holds_like_of_text {pattern text : String} {v : AttributeValue}
    (htext : textOf? v = some text) {compiled : RegexLibrary.Compiled}
    (hcompiled : likeRegex? pattern = some compiled) :
    holds (.like pattern) v = RegexLibrary.isMatch compiled text := by
  cases v with
  | list items => cases htext
  | _ => simp [holds, holdsSingle, htext, hcompiled]

variable {fits : String → Prop} (hlib : RegexLibrary.Documented fits)
include hlib

/-- The piece for a character has one part, also where the character has a meaning of its own in
expressions. -/
theorem reads_likePiece (c : Char) :
    ReadsParts ⟨true, true⟩ (likePiece c).toList [likePart c] := by
  unfold likePiece
  split
  · exact (ReadsPart.many .any).single
  · exact ReadsPart.any.single
  · next hrun hone =>
    have hescape := hlib.reads_escape ⟨true, true⟩ (String.singleton c)
    rw [String.toList_singleton, List.map_singleton] at hescape
    rwa [likePart.eq_3 c hrun hone]

/-- The library reads the expression as one part for each character, whatever the character. -/
theorem reads_likeSource (pattern : String) : Reads (likeSource pattern).toList
    (.start :: (pattern.toList.map likePart ++ [.finish])) := by
  have hpieces : ReadsParts ⟨true, true⟩
      (pattern.toList.flatMap fun c => (likePiece c).toList) (pattern.toList.map likePart) := by
    induction pattern.toList with
    | nil => exact .nil
    | cons c cs ih =>
      rw [List.flatMap_cons, List.map_cons]
      exact (reads_likePiece hlib c).append ih
  exact ⟨⟨true, true⟩, _, .cons .start (hpieces.append ReadsPart.finish.single),
    toList_likeSource pattern⟩

/-- The whole condition against `Divides`, for every library that keeps what it documents. -/
theorem holds_like_iff_divides {pattern text : String} (hfits : fits (likeSource pattern))
    {v : AttributeValue} (htext : textOf? v = some text) :
    holds (.like pattern) v = true ↔ Divides pattern.toList text.toList := by
  have hreads := reads_likeSource hlib pattern
  obtain ⟨compiled, hcompiled⟩ := hlib.compiles hreads hfits
  rw [holds_like_of_text htext hcompiled, hlib.isMatch_iff hreads hcompiled, found_likeParts]

/-- A pattern whose expression is within the limits of the library holds of a stored text, and of a
stored integer by its digits, when the text divides for the pattern. No character but `%` and `_`
stands for anything but itself: a pattern without them holds of the texts that differ from it in
case alone. -/
theorem holds_like {pattern : String} (hfits : fits (likeSource pattern)) :
    (∀ text : String, holds (.like pattern) (.string text) = true ↔
      Divides pattern.toList text.toList) ∧
    (∀ n : Int64, holds (.like pattern) (.int n) = true ↔
      Divides pattern.toList (toString n.toInt).toList) ∧
    ('%' ∉ pattern.toList → '_' ∉ pattern.toList → ∀ text : String,
      holds (.like pattern) (.string text) = true ↔
        text.toList.map fold = pattern.toList.map fold) := by
  refine ⟨fun text => ?_, fun n => ?_, fun hrun hone text => ?_⟩
  · exact holds_like_iff_divides hlib hfits rfl
  · exact holds_like_iff_divides hlib hfits rfl
  · rw [holds_like_iff_divides hlib hfits rfl, divides_iff_of_literal hrun hone]

end Library

/-- A pattern with a full stop, which is no open character, holds of a text with the letter in the
other case and the end of a line before it. -/
theorem holds_like_letter : RegexLibrary.Documented (fun _ => True) ∧
    Divides "%.m_".toList "24\n.M1".toList ∧
    holds (.like "%.m_") (.string "24\n.M1") = true := by
  have hdivides : Divides "%.m_".toList "24\n.M1".toList := by
    have hstop : StandsFor '.' ['.'] := .same (by decide) (by decide) rfl
    have hletter : StandsFor 'm' ['M'] := .same (by decide) (by decide) (by decide)
    exact ⟨[['2', '4', '\n'], ['.'], ['M'], ['1']],
      .cons (.run _) (.cons hstop (.cons hletter (.cons (.one _) .nil))), rfl⟩
  exact ⟨documented_engine, hdivides,
    ((holds_like documented_engine trivial).1 _).mpr hdivides⟩

end Filter

end EntityGraph
