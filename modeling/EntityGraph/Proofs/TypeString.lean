import EntityGraph.Proofs.Text
import EntityGraph.TypeString

/-!
Type strings and their texts. A text is read as the one type that it is the text of, blanks around
it apart. Main statement: `parse_forms`, for the six forms of a type string.
-/

namespace EntityGraph

namespace TypeString

/-- Name characters are letters, digits and the underscore, all in one range of codes. -/
theorem toNat_of_isNameChar {d : Char} (h : isNameChar d = true) :
    48 ≤ d.toNat ∧ d.toNat ≤ 122 := by
  have hchar : isNameChar d = (((decide (65 ≤ d.val ∧ d.val ≤ 90) ||
      (decide (97 ≤ d.val) && decide (d.val ≤ 122))) ||
        (decide (48 ≤ d.val) && decide (d.val ≤ 57))) || decide (d = '_')) := rfl
  simp only [hchar, Bool.or_eq_true, Bool.and_eq_true, decide_eq_true_eq,
    UInt32.le_iff_toNat_le] at h
  rcases h with ((h | h) | h) | rfl
  · change 65 ≤ d.toNat ∧ d.toNat ≤ 90 at h
    omega
  · change 97 ≤ d.toNat ∧ d.toNat ≤ 122 at h
    omega
  · change 48 ≤ d.toNat ∧ d.toNat ≤ 57 at h
    omega
  · decide

theorem isBlank_of_isNameChar {d : Char} (h : isNameChar d = true) : Text.isBlank d = false := by
  obtain ⟨hlow, hhigh⟩ := toNat_of_isNameChar h
  exact Text.isBlank_of_visible (by omega) (by omega)

def IsName (name : String) : Prop := name ≠ "" ∧ ∀ d ∈ name.toList, isNameChar d = true

instance (name : String) : Decidable (IsName name) :=
  decidable_of_iff (name ≠ "" ∧ name.toList.all isNameChar = true) (by simp [IsName])

@[simp] theorem text_named (name : String) : (named name).text = name := by
  simp [text, named, mark]

@[simp] theorem text_listOf (name : String) : (listOf name).text = "[" ++ name ++ "!]" := by
  simp [text, listOf, mark, String.append_assoc]

def IsPlain (t : TypeString) : Prop := t.list = false → t.elementNonNull = false

/-- A mark at the end is found, and only there. -/
theorem takeMark_append {cs : List Char} (h : cs.getLast? ≠ some '!') (marked : Bool) :
    takeMark (cs ++ (mark marked).toList) = (cs, marked) := by
  cases marked with
  | true => simp [takeMark, beforeLast?, mark]
  | false => simp [takeMark, beforeLast?, mark, h]

theorem beforeLast?_concat (d : Char) (cs : List Char) : beforeLast? d (cs ++ [d]) = some cs := by
  simp [beforeLast?]

theorem getLast?_ne {name : String} (h : IsName name) : name.toList.getLast? ≠ some '!' := by
  intro hlast
  exact absurd (h.2 '!' (List.mem_of_getLast? hlast)) (by decide)

/-- What stands before the outer mark: the name, or brackets with the name and the inner mark. -/
def unmarked (t : TypeString) : List Char :=
  if t.list then '[' :: (t.name.toList ++ (mark t.elementNonNull).toList ++ [']'])
  else t.name.toList

theorem toList_text (t : TypeString) :
    t.text.toList = t.unmarked ++ (mark t.nonNull).toList := by
  rw [text, unmarked]
  split <;> simp

theorem unmarked_getLast?_ne {t : TypeString} (hname : IsName t.name) :
    t.unmarked.getLast? ≠ some '!' := by
  rw [unmarked]
  split
  · rw [← List.cons_append, List.getLast?_concat]
    decide
  · exact getLast?_ne hname

theorem ofChars?_text {t : TypeString} (hname : IsName t.name) (hplain : t.IsPlain) :
    ofChars? t.text.toList = some t := by
  obtain ⟨name, list, elementNonNull, nonNull⟩ := t
  have hchars : (!name.toList.isEmpty && name.toList.all isNameChar) = true := by
    have hne : name.toList ≠ [] := fun h => hname.1 (String.toList_eq_nil_iff.mp h)
    simpa [hne] using hname.2
  rw [ofChars?, toList_text, takeMark_append (unmarked_getLast?_ne hname)]
  cases list with
  | true =>
    simp only [unmarked, ↓reduceIte, beforeLast?_concat, Option.map_some,
      takeMark_append (getLast?_ne hname), hchars, String.ofList_toList]
  | false =>
    obtain rfl : elementNonNull = false := hplain rfl
    have hfirst : ∀ rest, name.toList ≠ '[' :: rest := by
      intro rest hrest
      have hbracket : '[' ∈ name.toList := hrest ▸ List.mem_cons_self
      exact absurd (hname.2 _ hbracket) (by decide)
    simp only [unmarked, Bool.false_eq_true, ↓reduceIte, hchars, String.ofList_toList]

/-- What stands before a closing bracket. -/
theorem beforeLast?_eq_some {c : Char} {cs ds : List Char} :
    beforeLast? c cs = some ds ↔ cs = ds ++ [c] := by
  constructor
  · intro h
    rw [beforeLast?] at h
    split at h
    · next hlast =>
      obtain rfl := Option.some.inj h
      exact (List.dropLast_append_getLast? c hlast).symm
    · cases h
  · rintro rfl
    exact beforeLast?_concat c ds

theorem eq_takeMark (cs : List Char) :
    cs = (takeMark cs).1 ++ (mark (takeMark cs).2).toList := by
  rw [takeMark]
  split
  · next inner h => simpa [mark] using beforeLast?_eq_some.mp h
  · simp [mark]

theorem isName_ofList {cs : List Char} (h : (!cs.isEmpty && cs.all isNameChar) = true) :
    IsName (String.ofList cs) := by
  rw [Bool.and_eq_true, Bool.not_eq_true', List.isEmpty_eq_false_iff, List.all_eq_true] at h
  refine ⟨fun hempty => h.1 ?_, by rw [String.toList_ofList]; exact h.2⟩
  rw [← String.toList_ofList (l := cs), hempty, String.toList_empty]

/-- What is read as a type is the text of the type. -/
theorem text_of_ofChars? {cs : List Char} {t : TypeString} (h : ofChars? cs = some t) :
    IsName t.name ∧ t.IsPlain ∧ t.text.toList = cs := by
  have houter := eq_takeMark cs
  rw [ofChars?] at h
  generalize takeMark cs = outer at h houter
  obtain ⟨outside, nonNull⟩ := outer
  dsimp only at h houter
  split at h
  · next name list elementNonNull hparts =>
    split at h
    · next hchars =>
      obtain rfl := Option.some.inj h
      rw [toList_text, houter, List.append_left_inj]
      refine ⟨isName_ofList hchars, ?_⟩
      -- The brackets are taken off what the outer mark leaves, or there are none.
      split at hparts
      · next rest =>
        obtain ⟨inside, hinside, hread⟩ := Option.map_eq_some_iff.mp hparts
        have hinner := eq_takeMark inside
        rw [Prod.mk.injEq, Prod.mk.injEq] at hread
        obtain ⟨rfl, rfl, rfl⟩ := hread
        rw [unmarked, if_pos rfl, String.toList_ofList, ← hinner, beforeLast?_eq_some.mp hinside]
        exact ⟨nofun, rfl⟩
      · obtain ⟨rfl, rfl, rfl⟩ : outside = name ∧ false = list ∧ false = elementNonNull := by
          simpa using hparts
        exact ⟨fun _ => rfl, String.toList_ofList⟩
    · cases h
  · cases h

theorem ofChars?_eq_some {cs : List Char} {t : TypeString} :
    ofChars? cs = some t ↔ IsName t.name ∧ t.IsPlain ∧ t.text.toList = cs := by
  constructor
  · exact text_of_ofChars?
  · rintro ⟨hname, hplain, rfl⟩
    exact ofChars?_text hname hplain

/-- A text is read as the type that it is the text of, but for blanks around it. -/
theorem parse_eq_ok {s : String} {t : TypeString} :
    parse s = .ok t ↔ IsName t.name ∧ t.IsPlain ∧ t.text = Text.trimText s := by
  have hread : parse s = .ok t ↔ ofChars? (Text.trim s.toList) = some t := by
    rw [parse]
    split
    · next u hu => rw [hu, Except.ok.injEq, Option.some.injEq]
    · next hnone => simp [hnone]
  rw [hread, ofChars?_eq_some, Text.trimText, ← String.toList_inj, String.toList_ofList]

/-- No type string has a blank in it. -/
theorem isBlank_of_mem_text {t : TypeString} (hname : IsName t.name) {d : Char}
    (hd : d ∈ t.text.toList) : Text.isBlank d = false := by
  have hmark : ∀ b, d ∈ (mark b).toList → d = '!' := by
    intro b
    cases b <;> simp [mark]
  -- Letters of the name, brackets, marks.
  have hcases : d ∈ t.name.toList ∨ d = '[' ∨ d = ']' ∨ d = '!' := by
    rw [toList_text, unmarked, List.mem_append] at hd
    rcases hd with hd | hd
    · split at hd
      · simp only [List.mem_cons, List.mem_append, List.not_mem_nil, or_false] at hd
        rcases hd with hd | (hd | hd) | hd
        · exact Or.inr (Or.inl hd)
        · exact Or.inl hd
        · exact Or.inr (Or.inr (Or.inr (hmark _ hd)))
        · exact Or.inr (Or.inr (Or.inl hd))
      · exact Or.inl hd
    · exact Or.inr (Or.inr (Or.inr (hmark _ hd)))
  rcases hcases with hd | rfl | rfl | rfl
  · exact isBlank_of_isNameChar (hname.2 d hd)
  · decide
  · decide
  · decide

/-- The text of a type is read as the type. -/
theorem parse_text {t : TypeString} (hname : IsName t.name) (hplain : t.IsPlain) :
    parse t.text = .ok t := by
  have htrim : Text.trim t.text.toList = t.text.toList :=
    Text.trim_of_not_blank fun _ hd => isBlank_of_mem_text hname hd
  refine parse_eq_ok.mpr ⟨hname, hplain, ?_⟩
  rw [Text.trimText, htrim, String.ofList_toList]

/-- Any other text is refused as it stands. -/
theorem parse_eq_ok_or (s : String) :
    (∃ t, parse s = .ok t) ∨ parse s = .error (.invalidTypeString s) := by
  rw [parse]
  split
  · next t _ => exact Or.inl ⟨t, rfl⟩
  · exact Or.inr rfl

inductive Form : String → TypeString → Prop where
  | bare {name : String} : IsName name → Form name ⟨name, false, false, false⟩
  | marked {name : String} : IsName name → Form (name ++ "!") ⟨name, false, false, true⟩
  | list {name : String} : IsName name → Form ("[" ++ name ++ "]") ⟨name, true, false, false⟩
  | markedList {name : String} : IsName name →
      Form ("[" ++ name ++ "]!") ⟨name, true, false, true⟩
  | listOfMarked {name : String} : IsName name →
      Form ("[" ++ name ++ "!]") ⟨name, true, true, false⟩
  | markedListOfMarked {name : String} : IsName name →
      Form ("[" ++ name ++ "!]!") ⟨name, true, true, true⟩

/-- A form is the text of its type. -/
theorem form_iff {s : String} {t : TypeString} :
    Form s t ↔ IsName t.name ∧ t.IsPlain ∧ t.text = s := by
  constructor
  · intro h
    have hname : IsName t.name := by cases h <;> assumption
    have hplain : t.IsPlain := by cases h <;> simp [IsPlain]
    have htext : t.text = s := by cases h <;> simp [text, mark, String.append_assoc]
    exact ⟨hname, hplain, htext⟩
  · rintro ⟨hname, hplain, rfl⟩
    -- Three flags, of which the second needs the first: six forms.
    obtain ⟨name, list, elementNonNull, nonNull⟩ := t
    cases list with
    | true =>
      cases elementNonNull <;> cases nonNull
      · simpa [text, mark, String.append_assoc] using Form.list hname
      · simpa [text, mark, String.append_assoc] using Form.markedList hname
      · simpa [text, mark, String.append_assoc] using Form.listOfMarked hname
      · simpa [text, mark, String.append_assoc] using Form.markedListOfMarked hname
    | false =>
      obtain rfl : elementNonNull = false := hplain rfl
      cases nonNull
      · simpa [text, mark] using Form.bare hname
      · simpa [text, mark] using Form.marked hname

/-- The types that can be made: of a name, of an attribute, of a text, and from others. -/
inductive Made : TypeString → Prop where
  | named (name : String) : Made (.named name)
  | listOf (name : String) : Made (.listOf name)
  | nonNullListOf (name : String) : Made (.nonNullListOf name)
  | required {t : TypeString} : Made t → Made t.required
  | ofAttribute (a : Attribute) : Made (.ofAttribute a)
  | parsed {s : String} {t : TypeString} : parse s = .ok t → Made t

theorem isPlain_required {t : TypeString} (h : t.IsPlain) : t.required.IsPlain := h

theorem isPlain_ofAttribute (a : Attribute) : (ofAttribute a).IsPlain := by
  rw [ofAttribute]
  split
  · exact nofun
  · split <;> exact fun _ => rfl

/-- What is built has at most one list around it. -/
theorem Made.isPlain {t : TypeString} (h : Made t) : t.IsPlain := by
  induction h with
  | named name => exact fun _ => rfl
  | listOf name => exact nofun
  | nonNullListOf name => exact nofun
  | required _ ih => exact isPlain_required ih
  | ofAttribute a => exact isPlain_ofAttribute a
  | parsed h => exact (parse_eq_ok.mp h).2.1

/-- A text is read as a type exactly when its core is one of the six forms, and the type then has
the name and the marks of the form, and the core as its text; any other text is refused as it
stands. Every type that can be made is read from its text if its name is one. -/
theorem parse_forms (s : String) :
    Text.IsCore (Text.trimText s) s ∧
    (∀ t, parse s = .ok t ↔ Form (Text.trimText s) t) ∧
    (∀ t, parse s = .ok t → t.text = Text.trimText s) ∧
    ((∃ t, parse s = .ok t) ∨ parse s = .error (.invalidTypeString s)) ∧
    ∀ t, Made t → IsName t.name → parse t.text = .ok t := by
  refine ⟨Text.isCore_trimText s, fun t => ?_, fun t h => ?_, parse_eq_ok_or s, fun t h hname => ?_⟩
  · rw [parse_eq_ok, form_iff]
  · exact (parse_eq_ok.mp h).2.2
  · exact parse_text hname h.isPlain

/-- A list of orders with blanks around it. -/
theorem parse_forms_orders :
    (Made (.nonNullListOf "Order") ∧ IsName "Order" ∧ Text.trimText "\t[Order!]! " = "[Order!]!") ∧
    parse "\t[Order!]! " = .ok (.nonNullListOf "Order") ∧
    parse "[Order!]!" = .ok (.nonNullListOf "Order") := by
  have hmade : Made (.nonNullListOf "Order") := .nonNullListOf "Order"
  have hname : IsName "Order" := by decide
  have htrim : Text.trimText "\t[Order!]! " = "[Order!]!" := by decide
  have hform : Form (Text.trimText "\t[Order!]! ") (.nonNullListOf "Order") :=
    htrim ▸ Form.markedListOfMarked hname
  obtain ⟨_, hread, _, _, hback⟩ := parse_forms "\t[Order!]! "
  exact ⟨⟨hmade, hname, htrim⟩, (hread _).mpr hform, hback _ hmade hname⟩

end TypeString

end EntityGraph
