import EntityGraph.Document.Reader
import EntityGraph.Proofs.Schema.Document

namespace EntityGraph

namespace Document

def shortEscape? : Char → Option Char
  | '"' => some '"'
  | '\\' => some '\\'
  | '/' => some '/'
  | 'b' => some '\x08'
  | 'f' => some '\x0c'
  | 'n' => some '\n'
  | 'r' => some '\r'
  | 't' => some '\t'
  | _ => none

/-- The spellings of a character in a quoted text: the character itself, unless it is a quote, a
backslash or the end of a line, an escape, or its number. -/
inductive Spells : List Char → Char → Prop
  | plain {c : Char} : c ≠ '"' → c ≠ '\\' → isLineEnd c = false → Spells [c] c
  | short {c d : Char} : shortEscape? c = some d → Spells ['\\', c] d
  | number {digits : List Char} {n : Nat} : Json.readHex digits = some (n, []) →
      ¬ (0xd800 ≤ n ∧ n ≤ 0xdfff) → Spells ('\\' :: 'u' :: digits) (Char.ofNat n)

/-- A quoted text of one line stands for a text: spellings of its characters in quotes. -/
def Quotes (quoted text : List Char) : Prop :=
  ∃ pieces, List.Forall₂ Spells pieces text ∧ '"' :: (pieces.flatten ++ ['"']) = quoted

theorem isLineEnd_iff {c : Char} : isLineEnd c = true ↔ c = '\n' ∨ c = '\r' := by
  rw [isLineEnd, Bool.or_eq_true, decide_eq_true_eq, decide_eq_true_eq]

theorem isLineEnd_of_hexValue? {c : Char} {n : Nat} (h : Json.hexValue? c = some n) :
    isLineEnd c = false := by
  by_contra hend
  rcases isLineEnd_iff.mp (Bool.not_eq_false _ ▸ hend) with rfl | rfl <;> cases h

/-- Four digits are read whatever follows, and none of them ends a line. -/
theorem readHex_eq_some {digits : List Char} {n : Nat} (h : Json.readHex digits = some (n, [])) :
    (∀ rest, Json.readHex (digits ++ rest) = some (n, rest)) ∧
      ∀ d ∈ digits, isLineEnd d = false := by
  rw [Json.readHex.eq_def] at h
  split at h
  · next a b c d rest =>
    obtain ⟨i, hi, h⟩ := Option.bind_eq_some_iff.mp h
    obtain ⟨j, hj, h⟩ := Option.bind_eq_some_iff.mp h
    obtain ⟨k, hk, h⟩ := Option.bind_eq_some_iff.mp h
    obtain ⟨l, hl, h⟩ := Option.bind_eq_some_iff.mp h
    obtain ⟨rfl, rfl⟩ := Prod.mk.inj (Option.some.inj h)
    constructor
    · intro rest
      simp [Json.readHex, hi, hj, hk, hl]
    · simp [isLineEnd_of_hexValue? hi, isLineEnd_of_hexValue? hj, isLineEnd_of_hexValue? hk,
        isLineEnd_of_hexValue? hl]
  · cases h

theorem readEscape_of_shortEscape? {c d : Char} (h : shortEscape? c = some d) (rest : List Char) :
    readEscape (c :: rest) = some (d, rest) ∧ isLineEnd c = false := by
  rw [shortEscape?.eq_def] at h
  split at h
  all_goals first | cases h; exact ⟨rfl, rfl⟩ | cases h

/-- A plain character is read as itself. -/
theorem readChars_plain {c : Char} (hquote : c ≠ '"') (hbackslash : c ≠ '\\')
    (hend : isLineEnd c = false) (size : Nat) (rest : List Char) :
    readChars (size + 1) (c :: rest) =
      (readChars size rest).map fun (cs, rest) => (c :: cs, rest) := by
  rw [readChars, if_neg hquote, hend, if_neg Bool.false_ne_true, if_neg hbackslash]
  simp only [Option.bind_eq_bind, Option.bind_some]
  cases readChars size rest <;> rfl

/-- An escape is read as what it stands for. -/
theorem readChars_escape {c : Char} {cs rest : List Char}
    (h : readEscape cs = some (c, rest)) (size : Nat) : readChars (size + 1) ('\\' :: cs) =
      (readChars size rest).map fun (cs, rest) => (c :: cs, rest) := by
  have hquote : '\\' ≠ '"' := by decide
  have hend : isLineEnd '\\' = false := rfl
  rw [readChars, if_neg hquote, hend, if_neg Bool.false_ne_true, if_pos rfl, h]
  simp only [Option.bind_eq_bind, Option.bind_some]
  cases readChars size rest <;> rfl

namespace Spells

variable {piece : List Char} {c : Char}

theorem isLineEnd (h : Spells piece c) : ∀ d ∈ piece, isLineEnd d = false := by
  have hbackslash : Document.isLineEnd '\\' = false := rfl
  have hletter : Document.isLineEnd 'u' = false := rfl
  cases h with
  | plain _ _ hend => simpa using hend
  | short h => simpa [hbackslash] using (readEscape_of_shortEscape? h []).2
  | number h _ => simpa [hbackslash, hletter] using (readHex_eq_some h).2

/-- A spelling is read as the character that it stands for. -/
theorem readChars (h : Spells piece c) (size : Nat) (rest : List Char) :
    readChars (size + 1) (piece ++ rest) =
      (readChars size rest).map fun (cs, rest) => (c :: cs, rest) := by
  cases h with
  | plain hquote hbackslash hend => exact readChars_plain hquote hbackslash hend size rest
  | @short c _ h => exact readChars_escape (readEscape_of_shortEscape? h rest).1 size
  | @number digits n h hpair =>
    refine readChars_escape ?_ size
    change readEscapedNumber (digits ++ rest) = some (Char.ofNat n, rest)
    rw [readEscapedNumber, (readHex_eq_some h).1]
    exact if_neg hpair

end Spells

namespace Quotes

variable {quoted text : List Char}

/-- No line ends inside a quoted text. -/
theorem isLineEnd (h : Quotes quoted text) : ∀ d ∈ quoted, isLineEnd d = false := by
  obtain ⟨pieces, hpieces, rfl⟩ := h
  have hquote : Document.isLineEnd '"' = false := rfl
  have hinside : ∀ piece ∈ pieces, ∀ d ∈ piece, Document.isLineEnd d = false := by
    intro piece hpiece
    obtain ⟨c, _, hspells⟩ := Outcome.exists_mem_right hpieces hpiece
    exact hspells.isLineEnd
  intro d hd
  rw [List.mem_cons, List.mem_append, List.mem_flatten, List.mem_singleton] at hd
  rcases hd with rfl | ⟨piece, hpiece, hd⟩ | rfl
  · exact hquote
  · exact hinside piece hpiece d hd
  · exact hquote

/-- A quoted text is read as the text that it stands for. -/
theorem readChars (h : Quotes quoted text) {size : Nat} (hsize : text.length < size)
    (rest : List Char) : readChars size (quoted.tail ++ rest) = some (text, rest) := by
  obtain ⟨pieces, hpieces, rfl⟩ := h
  rw [List.tail_cons]
  induction hpieces generalizing size with
  | nil =>
    cases size with
    | zero => cases hsize
    | succ size => rw [List.flatten_nil, List.nil_append, List.singleton_append,
        Document.readChars, if_pos rfl]
  | cons hspells _ ih =>
    cases size with
    | zero => cases hsize
    | succ size =>
      rw [List.flatten_cons, List.append_assoc, List.append_assoc, hspells.readChars,
        ← List.append_assoc, ih (Nat.lt_of_succ_lt_succ hsize)]
      rfl

/-- A quoted text stands for one text. -/
theorem unique {other : List Char} (h : Quotes quoted text) (h' : Quotes quoted other) :
    text = other := by
  have hread := h.readChars (Nat.lt_succ_of_le (Nat.le_max_left _ other.length)) []
  have hread' := h'.readChars (Nat.lt_succ_of_le (Nat.le_max_right text.length _)) []
  exact (Prod.mk.inj (Option.some.inj (hread.symm.trans hread'))).1

end Quotes

end Document

namespace Schema

open Document (isLineEnd Quotes)

variable {t : String}

def OneLine (t : String) : Prop := ∀ c ∈ t.toList, isLineEnd c = false

def describedChar (c : Char) : List Char :=
  if c = '"' then ['\\', '"'] else if c = '\\' then ['\\', '\\'] else [c]

theorem toList_replaceChar (text : String) (c : Char) (other : String) :
    (replaceChar text c other).toList =
      text.toList.flatMap fun d => if d = c then other.toList else [d] := by
  rw [replaceChar, String.toList_ofList]

/-- The replacements go character by character: the second finds no quote in what the first has put
in, and its own backslashes come too late to be doubled. -/
theorem toList_quotedDescription (t : String) : (quotedDescription t).toList =
    '"' :: (t.toList.flatMap describedChar ++ ['"']) := by
  have hchar : ∀ c : Char, (if c = '\\' then "\\\\".toList else [c]).flatMap
      (fun d => if d = '"' then "\\\"".toList else [d]) = describedChar c := by
    intro c
    by_cases hbackslash : c = '\\'
    · subst hbackslash
      rfl
    · rw [if_neg hbackslash, List.flatMap_singleton, describedChar, if_neg hbackslash]
      rfl
  rw [quotedDescription, String.toList_append, String.toList_append, toList_replaceChar,
    toList_replaceChar, List.flatMap_assoc]
  simp only [hchar]
  rfl

theorem spells_describedChar {c : Char} (h : isLineEnd c = false) :
    Document.Spells (describedChar c) c := by
  rw [describedChar]
  split
  · next hquote =>
    subst hquote
    exact .short rfl
  · next hquote =>
    split
    · next hbackslash =>
      subst hbackslash
      exact .short rfl
    · next hbackslash => exact .plain hquote hbackslash h

/-- The end of a line is written as it is. -/
theorem describedChar_of_isLineEnd {c : Char} (h : isLineEnd c = true) : describedChar c = [c] := by
  rcases Document.isLineEnd_iff.mp h with rfl | rfl <;> rfl

theorem quotes_quotedDescription (h : OneLine t) :
    Quotes (quotedDescription t).toList t.toList := by
  refine ⟨t.toList.map describedChar, ?_, ?_⟩
  · rw [List.forall₂_map_left_iff, List.forall₂_same]
    exact fun c hc => spells_describedChar (h c hc)
  · rw [toList_quotedDescription, List.flatMap_def]

/-- A line end is written raw, and no literal has one. -/
theorem not_quotes_quotedDescription (h : ∃ c ∈ t.toList, isLineEnd c = true) (text : List Char) :
    ¬ Quotes (quotedDescription t).toList text := by
  intro hquotes
  obtain ⟨c, hc, hend⟩ := h
  have hmem : c ∈ (quotedDescription t).toList := by
    have hdescribed : c ∈ describedChar c := by simp [describedChar_of_isLineEnd hend]
    rw [toList_quotedDescription]
    exact .tail _ (List.mem_append_left _ (List.mem_flatMap.mpr ⟨c, hc, hdescribed⟩))
  cases hend.symm.trans (hquotes.isLineEnd c hmem)

/-- The reader stops at a raw line end, wherever it is. -/
theorem readChars_of_isLineEnd {cs : List Char} (h : ∃ c ∈ cs, isLineEnd c = true) (size : Nat)
    (rest : List Char) : Document.readChars size (cs.flatMap describedChar ++ rest) = none := by
  induction cs generalizing size with
  | nil => simp at h
  | cons c cs ih =>
    cases size with
    | zero => rfl
    | succ size =>
      rw [List.flatMap_cons, List.append_assoc]
      cases hend : isLineEnd c with
      | false =>
        -- The line ends after the first character, which is read.
        have hrest : ∃ d ∈ cs, isLineEnd d = true := by simpa [hend] using h
        rw [(spells_describedChar hend).readChars, ih hrest]
        rfl
      | true =>
        have hquote : c ≠ '"' := by
          rintro rfl
          cases hend
        rw [describedChar_of_isLineEnd hend, List.singleton_append, Document.readChars,
          if_neg hquote, hend, if_pos rfl]

/-- A description in quotes does not begin as a block does. -/
theorem head?_described {cs : List Char} (h : cs ≠ []) :
    ∃ d ds, cs.flatMap describedChar = d :: ds ∧ d ≠ '"' := by
  obtain ⟨c, cs, rfl⟩ := List.exists_cons_of_ne_nil h
  rw [List.flatMap_cons, describedChar]
  split
  · exact ⟨'\\', _, rfl, by decide⟩
  · next hquote =>
    split
    · exact ⟨'\\', _, rfl, by decide⟩
    · exact ⟨c, _, rfl, hquote⟩

theorem readString_quotedDescription (hne : t ≠ "") (size : Nat) (rest : List Char) :
    Document.readString size ((quotedDescription t).toList ++ rest) =
      (Document.readChars size (t.toList.flatMap describedChar ++ '"' :: rest)).map
        fun (cs, rest) => (String.ofList cs, rest) := by
  have hchars : t.toList ≠ [] := fun hnil => hne (String.toList_eq_nil_iff.mp hnil)
  obtain ⟨d, ds, hfirst, hquote⟩ := head?_described hchars
  have hskip : ∀ cs, Document.skipIgnored false ('"' :: cs) = '"' :: cs := fun cs => rfl
  rw [Document.readString, toList_quotedDescription, List.cons_append, hskip, List.append_assoc,
    List.singleton_append, hfirst, List.cons_append]
  split
  · next heq =>
    obtain ⟨_, heq⟩ := List.cons.inj heq
    exact absurd (List.cons.inj heq).1 hquote
  · next heq =>
    obtain ⟨_, rfl⟩ := List.cons.inj heq
    rfl
  · next hno => exact absurd rfl (hno _)

/-- A description of one line in quotes stands for the description alone, and is read as it. -/
theorem quotedDescription_of_oneLine (hne : t ≠ "") (h : OneLine t) :
    (∀ s, Quotes (quotedDescription t).toList s ↔ s = t.toList) ∧
      ∀ size rest, t.toList.length < size →
        Document.readString size ((quotedDescription t).toList ++ rest) = some (t, rest) := by
  have hquotes := quotes_quotedDescription h
  constructor
  · intro s
    constructor
    · exact fun hs => hs.unique hquotes
    · rintro rfl
      exact hquotes
  · intro size rest hsize
    have hread := hquotes.readChars hsize rest
    rw [toList_quotedDescription, List.tail_cons, List.append_assoc, List.singleton_append] at hread
    simp [readString_quotedDescription hne, hread]

/-- A description of more lines in quotes stands for nothing, and is not read. -/
theorem quotedDescription_of_not_oneLine (hne : t ≠ "") (h : ¬ OneLine t) :
    (∀ s, ¬ Quotes (quotedDescription t).toList s) ∧
      ∀ size rest, Document.readString size ((quotedDescription t).toList ++ rest) = none := by
  have hend : ∃ c ∈ t.toList, isLineEnd c = true := by simpa [OneLine] using h
  refine ⟨not_quotes_quotedDescription hend, fun size rest => ?_⟩
  rw [readString_quotedDescription hne, readChars_of_isLineEnd hend]
  rfl

def EndsLine (s : String) : Prop := ∃ front, s = front ++ "\n"

def BeforeLine (s : String) : Prop := s = "" ∨ EndsLine s

theorem EndsLine.append {s s' : String} (h : EndsLine s) (h' : BeforeLine s') :
    EndsLine (s ++ s') := by
  rcases h' with rfl | ⟨front, rfl⟩
  · rwa [String.append_empty]
  · exact ⟨s ++ front, String.append_assoc.symm⟩

theorem endsLine_line (l : Line) : EndsLine l.text := ⟨_, rfl⟩

/-- A line of a definition begins a line of the text of all. -/
theorem exists_before_line {l : Line} {lines : List Line} (h : l ∈ lines) :
    ∃ before after, BeforeLine before ∧
      String.join (lines.map Line.text) = before ++ l.text ++ after := by
  induction lines with
  | nil => cases h
  | cons first lines ih =>
    rw [List.map_cons, String.join_cons]
    rcases List.mem_cons.mp h with rfl | h
    · exact ⟨"", _, .inl rfl, by rw [String.empty_append]⟩
    · obtain ⟨before, after, hbefore, heq⟩ := ih h
      refine ⟨first.text ++ before, after, .inr ((endsLine_line first).append hbefore), ?_⟩
      rw [heq]
      simp only [String.append_assoc]

/-- A definition begins a line of the text of all. -/
theorem exists_before_block {b : Block} {bs : List Block} (h : b ∈ bs) :
    ∃ before after, BeforeLine before ∧
      "\n".intercalate (bs.map Block.text) = before ++ b.text ++ after := by
  induction bs with
  | nil => cases h
  | cons first bs ih =>
    cases bs with
    | nil =>
      obtain rfl := List.mem_singleton.mp h
      exact ⟨"", "", .inl rfl, by simp⟩
    | cons second bs =>
      rw [List.map_cons, List.map_cons, String.intercalate_cons_cons, ← List.map_cons]
      rcases List.mem_cons.mp h with rfl | h
      · exact ⟨"", "\n" ++ "\n".intercalate ((second :: bs).map Block.text), .inl rfl,
          by simp only [String.empty_append, String.append_assoc]⟩
      · obtain ⟨before, after, hbefore, heq⟩ := ih h
        have hfirst : EndsLine (first.text ++ "\n") := ⟨_, rfl⟩
        refine ⟨first.text ++ "\n" ++ before, after, .inr (hfirst.append hbefore), ?_⟩
        rw [heq]
        simp only [String.append_assoc]

/-- A description stands on a line of its own in a schema text, indented and in quotes, before the
head of what it describes. -/
def Describes (indent description head text : String) : Prop :=
  ∃ before after, BeforeLine before ∧
    text = before ++ (indent ++ quotedDescription description ++ "\n") ++ head ++ after

theorem Describes.within {indent description head text before after : String}
    (h : Describes indent description head text) (hbefore : BeforeLine before) :
    Describes indent description head (before ++ text ++ after) := by
  obtain ⟨front, back, hfront, rfl⟩ := h
  refine ⟨before ++ front, back ++ after, ?_, by simp only [String.append_assoc]⟩
  rcases hfront with rfl | hfront
  · rwa [String.append_empty]
  · obtain ⟨start, rfl⟩ := hfront
    exact .inr ⟨before ++ start, String.append_assoc.symm⟩

theorem Describes.of_block {indent description head : String} {b : Block} {bs : List Block}
    (h : Describes indent description head b.text) (hb : b ∈ bs) :
    Describes indent description head ("\n".intercalate (bs.map Block.text)) := by
  obtain ⟨before, after, hbefore, heq⟩ := exists_before_block hb
  rw [heq]
  exact h.within hbefore

theorem descriptionLine_of_ne {indent : String} (h : t ≠ "") :
    descriptionLine indent t = indent ++ quotedDescription t ++ "\n" := by
  rw [descriptionLine, if_neg (by simpa using h)]

theorem describes_line {l : Line} (h : l.description ≠ "") :
    Describes "  " l.description ("  " ++ l.name) l.text := by
  rw [Line.text, descriptionLine_of_ne h]
  exact ⟨"", _, .inl rfl, by simp only [String.empty_append, String.append_assoc]; rfl⟩

theorem describes_block {b : Block} (h : b.description ≠ "") :
    Describes "" b.description (b.keyword ++ " " ++ b.name ++ " \x7b\n") b.text := by
  rw [Block.text, descriptionLine_of_ne h]
  refine ⟨"", String.join (b.lines.map Line.text) ++ "\x7d\n", .inl rfl, ?_⟩
  simp only [String.empty_append, String.append_assoc]

theorem describes_line_of_block {b : Block} {l : Line} (hl : l ∈ b.lines)
    (h : l.description ≠ "") : Describes "  " l.description ("  " ++ l.name) b.text := by
  obtain ⟨before, after, hbefore, hlines⟩ := exists_before_line hl
  have hhead : " \x7b\n" = " \x7b" ++ "\n" := rfl
  have hopen : EndsLine (descriptionLine "" b.description ++ b.keyword ++ " " ++ b.name ++
      " \x7b\n") := by
    rw [hhead, ← String.append_assoc]
    exact ⟨_, rfl⟩
  have htext : b.text = (descriptionLine "" b.description ++ b.keyword ++ " " ++ b.name ++
      " \x7b\n" ++ before) ++ l.text ++ (after ++ "\x7d\n") := by
    rw [Block.text, hlines]
    simp only [String.append_assoc]
  rw [htext]
  exact (describes_line h).within (.inr (hopen.append hbefore))

/-- What has a description in a schema text: the root fields, the entities whose output types the
schema needs, and their attributes. -/
inductive Described (c : Catalog) (roots : RootFields) : String → String → String → Prop
  | root {f : RootField} : f ∈ roots.query ++ roots.mutation →
      Described c roots "  " f.description ("  " ++ f.name)
  | entity {e : Entity} : NeededEntity c roots .object e →
      Described c roots "" e.description ("type " ++ e.name ++ " \x7b\n")
  | member {e : Entity} {a : Attribute} : NeededEntity c roots .object e → a ∈ e.attributes →
      Described c roots "  " a.description ("  " ++ a.name)

variable {c : Catalog} {roots : RootFields} {pages : PageDefaults} {types : Reachable}
  {sections : TypeKind → List Block} {text indent head : String}

theorem print_eq_ok (h : (print c roots pages).outcome = .ok text) :
    ∃ types sections, (reachable c roots).outcome = .ok types ∧ Sections c types sections ∧
      text = "\n".intercalate ((document roots pages sections).map Block.text) := by
  rw [print, Tracked.outcome_bind] at h
  obtain ⟨bs, hbs, htext⟩ := Outcome.bind_eq_ok.mp h
  have hblocks := hbs
  rw [blocks, Tracked.outcome_bind] at hbs
  obtain ⟨types, htypes, _⟩ := Outcome.bind_eq_ok.mp hbs
  obtain ⟨sections, hs⟩ := sections_isOk htypes
  have hdocument := Except.ok.inj (hblocks.symm.trans (blocks_of_sections htypes hs))
  exact ⟨types, sections, htypes, hs, hdocument ▸ (Except.ok.inj htext).symm⟩

theorem exists_rootBlock {f : RootField} (hf : f ∈ roots.query ++ roots.mutation)
    (pages : PageDefaults) :
    ∃ b ∈ rootBlocks roots pages, ∃ l ∈ b.lines, l.description = f.description ∧
      l.name = f.name := by
  obtain ⟨kind, hf⟩ := RootFields.exists_kind hf
  have hkind : kind ∈ [RootKind.query, RootKind.mutation] := by cases kind <;> simp
  have hblock : ∃ b, rootBlock? roots pages kind = some b ∧ ∃ l ∈ b.lines,
      l.description = f.description ∧ l.name = f.name := by
    rw [rootBlock?]
    split
    · next hnil => simp [hnil] at hf
    · next fields _ => exact ⟨_, rfl, _, List.mem_map_of_mem hf, rfl, rfl⟩
  obtain ⟨b, hb, hline⟩ := hblock
  exact ⟨b, List.mem_filterMap.mpr ⟨kind, hkind, hb⟩, hline⟩

theorem exists_objectBlock (htypes : (reachable c roots).outcome = .ok types)
    (hs : Sections c types sections) {e : Entity} (he : NeededEntity c roots .object e) :
    ∃ b ∈ document roots pages sections, (b.keyword = "type" ∧ b.name = e.name ∧
      b.description = e.description) ∧ ∀ a ∈ e.attributes, ∃ l ∈ b.lines,
        l.description = a.description ∧ l.name = a.name := by
  have hreached : e ∈ types.of .object := (mem_reachable_iff htypes).mpr he
  obtain ⟨b, hb, hblock⟩ := Outcome.exists_mem_right (hs .object) hreached
  obtain ⟨fields, hfields, rfl⟩ := blockOf_eq_ok.mp hblock
  refine ⟨_, mem_document_of_section hb, ⟨rfl, rfl, rfl⟩, fun a ha => ?_⟩
  obtain ⟨f, hf, hfield⟩ := Outcome.exists_mem_right (objectFields_eq_ok.mp hfields) ha
  have hdefinition := (isOutputField hfield).definition
  exact ⟨_, List.mem_map_of_mem hf, congrArg Attribute.description hdefinition,
    congrArg Attribute.name hdefinition⟩

/-- Whatever is described stands in the text, on a line of its own above its head. -/
theorem describes_of_print (h : (print c roots pages).outcome = .ok text)
    (hd : Described c roots indent t head) (hne : t ≠ "") : Describes indent t head text := by
  obtain ⟨types, sections, htypes, hs, rfl⟩ := print_eq_ok h
  -- Members are described inside a block, entities at its head.
  have hline : ∀ {b : Block} {l : Line} {name : String}, b ∈ document roots pages sections →
      l ∈ b.lines → l.description = t → l.name = name → Describes "  " t ("  " ++ name)
        ("\n".intercalate ((document roots pages sections).map Block.text)) := by
    rintro b l _ hb hl rfl rfl
    exact (describes_line_of_block hl hne).of_block hb
  cases hd with
  | root hf =>
    obtain ⟨b, hb, l, hl, hdescription, hname⟩ := exists_rootBlock hf pages
    have hmem : b ∈ document roots pages sections := by simp [document, hb]
    exact hline hmem hl hdescription hname
  | entity he =>
    obtain ⟨b, hb, ⟨hkeyword, hname, hdescription⟩, _⟩ := exists_objectBlock htypes hs he
    have htype : "type " = "type" ++ " " := rfl
    rw [← hdescription] at hne ⊢
    rw [htype, ← hname, ← hkeyword]
    exact (describes_block hne).of_block hb
  | member he ha =>
    obtain ⟨b, hb, _, hlines⟩ := exists_objectBlock htypes hs he
    obtain ⟨l, hl, hdescription, hname⟩ := hlines _ ha
    exact hline hb hl hdescription hname

/-- Every description of a schema stands in its text, on a line of its own before what it describes.
If it has one line, it can be read back from there, and what stands there stands for nothing else;
if it has more, what stands there is no quoted text. -/
theorem descriptions_exact (h : (print c roots pages).outcome = .ok text)
    (hd : Described c roots indent t head) (hne : t ≠ "") :
    Describes indent t head text ∧
    (OneLine t → (∀ s, Quotes (quotedDescription t).toList s ↔ s = t.toList) ∧
      ∀ size rest, t.toList.length < size →
        Document.readString size ((quotedDescription t).toList ++ rest) = some (t, rest)) ∧
    (¬ OneLine t → (∀ s, ¬ Quotes (quotedDescription t).toList s) ∧
      ∀ size rest, Document.readString size ((quotedDescription t).toList ++ rest) = none) :=
  ⟨describes_of_print h hd hne, quotedDescription_of_oneLine hne,
    quotedDescription_of_not_oneLine hne⟩

def note (description : String) : Entity :=
  .ofAttributes "Note" description [.scalar "id" "" .id false, .scalar "text" "" .string false]

def notes (description : String) : Catalog := ⟨[note description], by simp⟩

def noteRoots : RootFields := .ofLists [⟨"notes", "", "Note", .search⟩] []

theorem described_note (description : String) :
    Described (notes description) noteRoots "" description "type Note \x7b\n" := by
  have hroot : (⟨"notes", "", "Note", .search⟩ : RootField) ∈
      noteRoots.query ++ noteRoots.mutation := by decide
  have hneeded : NeededEntity (notes description) noteRoots .object (note description) :=
    ⟨.root hroot, rfl⟩
  exact .entity hneeded

/-- The notes can be printed, whatever their description. -/
theorem exists_print_notes (description : String) :
    ∃ text, (print (notes description) noteRoots .standard).outcome = .ok text := by
  have hclosed : (notes description).Closed := by
    intro e he a ha hk
    obtain rfl := List.mem_singleton.mp he
    rcases List.mem_pair.mp ha with rfl | rfl <;> cases hk
  have hset : ∀ e ∈ (notes description).entities, ∃ a ∈ e.attributes, isSettable a = true := by
    intro e he
    obtain rfl := List.mem_singleton.mp he
    exact ⟨.scalar "text" "" .string false, List.mem_pair.mpr (.inr rfl), rfl⟩
  obtain ⟨coverage⟩ : Nonempty (Coverage (notes description) noteRoots) := by
    refine coverage_of_closed hclosed hset fun f hf => ?_
    obtain rfl := List.mem_singleton.mp hf
    rfl
  exact print_isOk coverage .standard

/-- A description with quotes and backslashes is read back from its schema. -/
theorem descriptions_exact_quotes : ∃ text,
    (print (notes "\"a\" \\b") noteRoots .standard).outcome = .ok text ∧
    Describes "" "\"a\" \\b" "type Note \x7b\n" text ∧
    Quotes (quotedDescription "\"a\" \\b").toList "\"a\" \\b".toList := by
  obtain ⟨text, htext⟩ := exists_print_notes "\"a\" \\b"
  have hline : OneLine "\"a\" \\b" := by
    have hchars : "\"a\" \\b".toList = ['"', 'a', '"', ' ', '\\', 'b'] := rfl
    rw [OneLine, hchars]
    simp [isLineEnd]
  obtain ⟨hdescribes, hexact, _⟩ := descriptions_exact htext (described_note _) (by decide)
  exact ⟨text, htext, hdescribes, ((hexact hline).1 _).mpr rfl⟩

/-- A description of two lines breaks its schema: what stands before the type is no quoted text. -/
theorem two_lines_not_quoted : ∃ text,
    (print (notes "a\nb") noteRoots .standard).outcome = .ok text ∧
    Describes "" "a\nb" "type Note \x7b\n" text ∧
    ∀ s, ¬ Quotes (quotedDescription "a\nb").toList s := by
  obtain ⟨text, htext⟩ := exists_print_notes "a\nb"
  have hlines : ¬ OneLine "a\nb" := by
    have hchars : "a\nb".toList = ['a', '\n', 'b'] := rfl
    rw [OneLine, hchars]
    simp [isLineEnd]
  exact ⟨text, htext, describes_of_print htext (described_note _) (by decide),
    (quotedDescription_of_not_oneLine (by decide) hlines).1⟩

end Schema

end EntityGraph
