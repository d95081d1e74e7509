import Mathlib.Data.List.TakeWhile
import EntityGraph.Proofs.Outcome
import EntityGraph.Text.Blank
import EntityGraph.Text.Integer

/-!
Texts cut at a separator and at blanks. What is cut off the ends of a text are its blanks; a text
that is read as an integer has none to cut.
-/

namespace EntityGraph.Text

theorem splitAt_ne_nil (separator : Char) (cs : List Char) : splitAt separator cs ≠ [] := by
  cases cs with
  | nil => simp [splitAt]
  | cons c cs =>
    rw [splitAt]
    split
    · simp
    · split <;> simp

/-- Without the separator there is one piece. -/
theorem splitAt_of_not_mem {separator : Char} {cs : List Char} (h : separator ∉ cs) :
    splitAt separator cs = [cs] := by
  induction cs with
  | nil => rfl
  | cons c cs ih =>
    rw [List.mem_cons, not_or] at h
    rw [splitAt, if_neg (Ne.symm h.1), ih h.2]

/-- The piece before the first separator comes first. -/
theorem splitAt_append {separator : Char} {cs : List Char} (h : separator ∉ cs)
    (rest : List Char) : splitAt separator (cs ++ separator :: rest) =
      cs :: splitAt separator rest := by
  induction cs with
  | nil => rw [List.nil_append, splitAt, if_pos rfl]
  | cons c cs ih =>
    rw [List.mem_cons, not_or] at h
    rw [List.cons_append, splitAt, if_neg (Ne.symm h.1), ih h.2]

theorem splitText_ne_nil (separator : Char) (s : String) : splitText separator s ≠ [] := by
  rw [splitText, Ne, List.map_eq_nil_iff]
  exact splitAt_ne_nil separator s.toList

theorem splitText_of_not_mem {separator : Char} {s : String} (h : separator ∉ s.toList) :
    splitText separator s = [s] := by
  rw [splitText, splitAt_of_not_mem h, List.map_singleton, String.ofList_toList]

/-- A text of one piece has no separator. -/
theorem not_mem_of_splitText_single {separator : Char} {s piece : String}
    (h : splitText separator s = [piece]) : separator ∉ s.toList := by
  intro hmem
  obtain ⟨before, after, hs, hbefore⟩ := List.eq_append_cons_of_mem hmem
  rw [splitText, hs, splitAt_append hbefore, List.map_cons] at h
  exact splitAt_ne_nil separator after (List.map_eq_nil_iff.mp (List.cons.inj h).2)

theorem splitText_dot {s : String} (h : '.' ∉ s.toList) (rest : String) :
    splitText '.' (s ++ "." ++ rest) = s :: splitText '.' rest := by
  have hl : (s ++ "." ++ rest).toList = s.toList ++ '.' :: rest.toList := by simp
  rw [splitText, hl, splitAt_append h, List.map_cons, String.ofList_toList, splitText]

structure IsCore (core s : String) : Prop where
  between : ∃ before after : List Char, (∀ d ∈ before ++ after, isBlank d = true) ∧
    s.toList = before ++ core.toList ++ after
  first : ∀ d, core.toList.head? = some d → isBlank d = false
  last : ∀ d, core.toList.getLast? = some d → isBlank d = false

theorem isBlank_of_head?_dropWhile {cs : List Char} {d : Char}
    (h : (cs.dropWhile isBlank).head? = some d) : isBlank d = false := by
  have hd := cs.head?_dropWhile_not isBlank
  rwa [h] at hd

/-- Trimming a text leaves its core. -/
theorem isCore_trimText (s : String) : IsCore (trimText s) s := by
  let rest := s.toList.dropWhile isBlank
  let after := (rest.reverse.takeWhile isBlank).reverse
  have hcore : (trimText s).toList = (rest.reverse.dropWhile isBlank).reverse := by
    rw [trimText, String.toList_ofList, trim]
  have hrest : (trimText s).toList ++ after = rest := by
    rw [hcore, ← List.reverse_append, List.takeWhile_append_dropWhile, List.reverse_reverse]
  refine ⟨⟨s.toList.takeWhile isBlank, after, fun d hd => ?_, ?_⟩, fun d hd => ?_, fun d hd => ?_⟩
  · rcases List.mem_append.mp hd with hd | hd
    · exact List.mem_takeWhile_imp hd
    · exact List.mem_takeWhile_imp (List.mem_reverse.mp hd)
  · rw [List.append_assoc, hrest, List.takeWhile_append_dropWhile]
  · -- The core begins what is left when the blanks before it are dropped.
    have hfirst : rest.head? = some d := by
      rw [← hrest, List.head?_append, hd, Option.some_or]
    exact isBlank_of_head?_dropWhile hfirst
  · rw [hcore, List.getLast?_reverse] at hd
    exact isBlank_of_head?_dropWhile hd

/-- Nothing is trimmed where nothing is blank. -/
theorem trim_of_not_blank {cs : List Char} (h : ∀ d ∈ cs, isBlank d = false) : trim cs = cs := by
  have hdrop : ∀ ds : List Char, (∀ d ∈ ds, isBlank d = false) → ds.dropWhile isBlank = ds :=
    fun ds hds => List.dropWhile_eq_self_iff.mpr fun _ => by simp [hds _ (List.getElem_mem _)]
  rw [trim, hdrop cs h, hdrop _ fun d hd => h d (List.mem_reverse.mp hd), List.reverse_reverse]

theorem inRanges_of_outside {n : Nat} {ranges : List (Nat × Nat)}
    (h : ∀ r ∈ ranges, n < r.1 ∨ r.2 < n) : inRanges n ranges = false := by
  induction ranges with
  | nil => rfl
  | cons r ranges ih =>
    obtain ⟨hr, hrest⟩ := List.forall_mem_cons.mp h
    rw [inRanges, ih hrest]
    split
    · rfl
    · rw [Bool.or_false, decide_eq_false_iff_not]
      omega

/-- Between the space and the last control character of seven bits nothing is blank. -/
theorem isBlank_of_visible {d : Char} (hlow : 0x20 < d.toNat) (hhigh : d.toNat < 0x7f) :
    isBlank d = false := by
  have houtside : ∀ r ∈ blankRanges, r.2 ≤ 0x20 ∨ 0x7f ≤ r.1 := by decide
  refine inRanges_of_outside fun r hr => ?_
  have hends := houtside r hr
  omega

theorem isBlank_of_isDigit {d : Char} (h : d.isDigit = true) : isBlank d = false := by
  rw [Char.isDigit, Bool.and_eq_true, decide_eq_true_eq, decide_eq_true_eq, ge_iff_le,
    UInt32.le_iff_toNat_le, UInt32.le_iff_toNat_le] at h
  change 48 ≤ d.toNat ∧ d.toNat ≤ 57 at h
  exact isBlank_of_visible (by omega) (by omega)

/-- What is read within a limit are digits, and stays within the limit. -/
theorem readDigits_spec {limit value n : Nat} {fault : IntegerFault} {cs : List Char}
    (hv : value ≤ limit) (h : readDigits limit fault value cs = .ok n) :
    (∀ d ∈ cs, d.isDigit = true) ∧ n ≤ limit := by
  induction cs generalizing value with
  | nil => exact ⟨by simp, Except.ok.inj h ▸ hv⟩
  | cons d cs ih =>
    rw [readDigits] at h
    split at h
    · next hd =>
      dsimp only at h
      split at h
      · next hnext =>
        obtain ⟨hdigits, hn⟩ := ih hnext h
        exact ⟨List.forall_mem_cons.mpr ⟨hd, hdigits⟩, hn⟩
      · cases h
    · cases h

theorem readUnsignedDigits_spec {limit n : Nat} {fault : IntegerFault} {cs : List Char}
    (h : readUnsignedDigits limit fault cs = .ok n) :
    (∀ d ∈ cs, d.isDigit = true) ∧ n ≤ limit := by
  cases cs with
  | nil => cases h
  | cons d cs => exact readDigits_spec (Nat.zero_le limit) h

/-- What is read as a number has no blank in it. -/
theorem not_blank_of_readInt64 {s : String} {n : Int} (h : readInt64 s = .ok n) :
    ∀ d ∈ s.toList, isBlank d = false := by
  rw [readInt64] at h
  split at h
  · cases h
  · next digits hs =>
    obtain ⟨_, hread, rfl⟩ := Outcome.map_eq_ok.mp h
    obtain ⟨m, hm, _⟩ := Outcome.bind_eq_ok.mp hread
    rw [hs]
    refine List.forall_mem_cons.mpr ⟨by decide, fun d hd => ?_⟩
    exact isBlank_of_isDigit ((readUnsignedDigits_spec hm).1 d hd)
  · next digits hs =>
    obtain ⟨m, hm, _⟩ := Outcome.map_eq_ok.mp h
    rw [hs]
    refine List.forall_mem_cons.mpr ⟨by decide, fun d hd => ?_⟩
    exact isBlank_of_isDigit ((readUnsignedDigits_spec hm).1 d hd)
  · obtain ⟨m, hm, _⟩ := Outcome.map_eq_ok.mp h
    exact fun d hd => isBlank_of_isDigit ((readDigits_spec (Nat.zero_le _) hm).1 d hd)

/-- A text that is read as an integer has no blanks around it. -/
theorem trimText_of_readInt64 {s : String} {n : Int} (h : readInt64 s = .ok n) :
    trimText s = s := by
  rw [trimText, trim_of_not_blank (not_blank_of_readInt64 h), String.ofList_toList]

end EntityGraph.Text
