import Picasu.Framework.Normalizer
import Picasu.Router.Edits

/-! # The Stored Form of a Tag

A tag is normalized and then loses the characters that cannot be stored. It is removed by its
stored form, which goes through the same function again. A character that is dropped keeps what is
before it and what is after it apart while they are normalized; without it they may combine, and
then the stored form is no tag that can be removed.

`stored_form_stable_iff`: the stored form is normal, is its own stored form and can be removed
exactly if the pieces of the text between the dropped characters do not combine.

`sanitize_filename` drops characters before it normalizes.
-/

/-- The characters that a tag keeps. -/
def is_tag_char (c : Char) : Bool := is_valid_xml_char c && c != '\n' && c != '\r'

/-- What is known of Unicode normalization form C: it represents a class of equivalent texts, and
equivalence is kept by concatenation; controls and the two noncharacters are inert, and come
from nothing else. -/
structure UnicodeNfc (nfc : String → String) : Prop where
  empty : nfc "" = ""
  append : ∀ s t, nfc (nfc s ++ nfc t) = nfc (s ++ t)
  inert : ∀ s c t, is_tag_char c = false →
    nfc (s ++ String.singleton c ++ t) = nfc s ++ String.singleton c ++ nfc t
  mem_of_mem : ∀ s c, is_tag_char c = false → c ∈ (nfc s).toList → c ∈ s.toList

variable (nfc : String → String)

/-- Normalization, on lists of characters. -/
def nfc_list (s : List Char) : List Char := (nfc (String.ofList s)).toList

/-- The pieces between the characters that are not kept combine with each other in no way. -/
def PiecesApart (keep : Char → Bool) (s : String) : Prop :=
  nfc_list nfc (s.toList.filter keep) = (Normalizer.pieces keep s.toList).flatMap (nfc_list nfc)

instance (nfc : String → String) (keep : Char → Bool) (s : String) :
    Decidable (PiecesApart nfc keep s) :=
  inferInstanceAs (Decidable (_ = _))

/-- Normalization, and what is kept of it. -/
def stored_form (keep : Char → Bool) (s : String) : String :=
  String.ofList ((nfc s).toList.filter keep)

theorem sanitize_tag_eq (s : String) :
    sanitize_tag nfc s = stored_form nfc is_tag_char s := rfl

theorem sanitize_text_eq (s : String) :
    sanitize_text nfc s = stored_form nfc is_valid_xml_char s := rfl

section Stored

variable {nfc : String → String} {keep : Char → Bool}

theorem UnicodeNfc.normalizer (h : UnicodeNfc nfc)
    (hkeep : ∀ c, keep c = false → is_tag_char c = false) : Normalizer keep (nfc_list nfc) where
  nil := by
    rw [nfc_list, String.ofList_nil, h.empty]
    rfl
  append xs ys := by
    unfold nfc_list
    rw [String.ofList_append, String.ofList_toList, String.ofList_toList, h.append,
      ← String.ofList_append]
  inert xs c ys hc := by
    have hsplit : String.ofList (xs ++ c :: ys) =
        String.ofList xs ++ String.singleton c ++ String.ofList ys := by
      apply String.toList_injective
      simp
    unfold nfc_list
    rw [hsplit, h.inert _ c _ (hkeep c hc)]
    simp
  mem_of_mem xs c hc hmem := by
    have horigin := h.mem_of_mem (String.ofList xs) c (hkeep c hc) hmem
    rwa [String.toList_ofList] at horigin

theorem toList_stored_form (s : String) :
    (stored_form nfc keep s).toList = (nfc_list nfc s.toList).filter keep := by
  rw [stored_form, String.toList_ofList, nfc_list, String.ofList_toList]

/-- The stored form is normal if the pieces do not combine. -/
theorem nfc_stored_form_iff (h : Normalizer keep (nfc_list nfc)) (s : String) :
    nfc (stored_form nfc keep s) = stored_form nfc keep s ↔ PiecesApart nfc keep s := by
  have hnormal := h.norm_filter_norm_eq_iff s.toList
  rw [← toList_stored_form] at hnormal
  unfold PiecesApart
  rw [← hnormal, nfc_list, String.ofList_toList, String.toList_inj]

/-- It is its own stored form if it is normal: nothing is dropped from it. -/
theorem stored_form_stored_form_iff (h : Normalizer keep (nfc_list nfc)) (s : String) :
    stored_form nfc keep (stored_form nfc keep s) = stored_form nfc keep s ↔
      PiecesApart nfc keep s := by
  rw [← nfc_stored_form_iff h, ← String.toList_inj, toList_stored_form, toList_stored_form,
    h.filter_norm_filter_norm, ← toList_stored_form, ← String.toList_inj, nfc_list,
    String.ofList_toList]

/-- A tag is removed by its stored form if that is its own stored form. -/
theorem removed_iff (hempty : nfc "" = "") (s : String) :
    (∀ tags, sanitize_tag nfc s ∉
        edited_tags nfc [] [sanitize_tag nfc s] (edited_tags nfc [s] [] tags)) ↔
      sanitize_tag nfc (sanitize_tag nfc s) = sanitize_tag nfc s := by
  constructor
  · intro habsent
    by_cases hnone : sanitize_tag nfc s = ""
    · rw [hnone, sanitize_tag, hempty]
      rfl
    · have hstored : sanitize_tag nfc s ∈ edited_tags nfc [s] [] ∅ := by simp [edited_tags, hnone]
      have hnot := habsent ∅
      by_contra hother
      exact hnot (Finset.mem_erase.mpr ⟨Ne.symm hother, hstored⟩)
  · intro hsame tags hmem
    have herased : sanitize_tag nfc s ∈
        (edited_tags nfc [s] [] tags).erase (sanitize_tag nfc (sanitize_tag nfc s)) := hmem
    rw [hsame] at herased
    exact Finset.notMem_erase _ _ herased

end Stored

/-- The stored form of a tag is normal, is its own stored form and can be removed, exactly if the
pieces between the dropped characters do not combine; and so for a description, which keeps its
lines. -/
theorem stored_form_stable_iff {nfc : String → String} (h : UnicodeNfc nfc) (s : String) :
    ((nfc (sanitize_tag nfc s) = sanitize_tag nfc s ∧
        sanitize_tag nfc (sanitize_tag nfc s) = sanitize_tag nfc s ∧
        ∀ tags, sanitize_tag nfc s ∉
          edited_tags nfc [] [sanitize_tag nfc s] (edited_tags nfc [s] [] tags)) ↔
      PiecesApart nfc is_tag_char s) ∧
    ((nfc (sanitize_text nfc s) = sanitize_text nfc s ∧
        sanitize_text nfc (sanitize_text nfc s) = sanitize_text nfc s) ↔
      PiecesApart nfc is_valid_xml_char s) := by
  have htag := h.normalizer (fun c hc => hc)
  have htext : Normalizer is_valid_xml_char (nfc_list nfc) := by
    apply h.normalizer
    intro c hc
    simp [is_tag_char, hc]
  constructor
  · rw [removed_iff h.empty]
    rw [sanitize_tag_eq, sanitize_tag_eq, nfc_stored_form_iff htag,
      stored_form_stored_form_iff htag, and_self, and_self]
  · rw [sanitize_text_eq, sanitize_text_eq, nfc_stored_form_iff htext,
      stored_form_stored_form_iff htext, and_self]

/-! ## An accent -/

/-- A character before a text that is composed already. -/
def compose_acute (c : Char) (s : List Char) : List Char :=
  if c = 'e' ∧ s.head? = some '\u0301' then '\u00e9' :: s.tail else c :: s

/-- Normalization of texts with no accent but the acute one on an e. -/
def nfc_acute (s : String) : String := String.ofList (s.toList.foldr compose_acute [])

variable {c : Char}

theorem compose_acute_of_ne (hc : c ≠ 'e') (s : List Char) :
    compose_acute c s = c :: s := by
  rw [compose_acute, if_neg (by simp [hc])]

/-- A text may be composed before another one follows it. -/
theorem foldr_compose_acute (s out : List Char) :
    (s.foldr compose_acute []).foldr compose_acute out = s.foldr compose_acute out := by
  induction s with
  | nil => rfl
  | cons c s ih =>
    rw [List.foldr_cons, List.foldr_cons, ← ih]
    generalize s.foldr compose_acute [] = composed
    by_cases haccent : c = 'e' ∧ composed.head? = some '\u0301'
    · obtain ⟨rfl, hhead⟩ := haccent
      obtain ⟨rest, rfl⟩ := List.head?_eq_some_iff.mp hhead
      simp [compose_acute]
    · rw [compose_acute, if_neg haccent, List.foldr_cons]

/-- A character that is no accent keeps its sides apart. -/
theorem foldr_compose_acute_cons (hc : c ≠ '\u0301') (s rest : List Char) :
    s.foldr compose_acute (c :: rest) = s.foldr compose_acute [] ++ c :: rest := by
  induction s with
  | nil => rfl
  | cons d s ih =>
    rw [List.foldr_cons, List.foldr_cons, ih]
    generalize s.foldr compose_acute [] = composed
    cases composed with
    | nil => simp [compose_acute, hc]
    | cons first composed =>
      by_cases haccent : d = 'e' ∧ first = '\u0301'
      · simp [compose_acute, haccent]
      · simp [compose_acute, haccent]

theorem mem_foldr_compose_acute (hc : c ≠ '\u00e9') {s : List Char}
    (hmem : c ∈ s.foldr compose_acute []) : c ∈ s := by
  induction s with
  | nil => exact hmem
  | cons d s ih =>
    rw [List.foldr_cons, compose_acute] at hmem
    split at hmem
    · obtain rfl | hmem := List.mem_cons.mp hmem
      · exact absurd rfl hc
      · exact List.mem_cons_of_mem d (ih (List.mem_of_mem_tail hmem))
    · obtain rfl | hmem := List.mem_cons.mp hmem
      · exact List.mem_cons_self
      · exact List.mem_cons_of_mem d (ih hmem)

theorem unicodeNfc_nfc_acute : UnicodeNfc nfc_acute where
  empty := rfl
  append s t := by
    unfold nfc_acute
    congr 1
    rw [String.toList_append, String.toList_append, String.toList_ofList, String.toList_ofList,
      List.foldr_append, List.foldr_append, foldr_compose_acute, foldr_compose_acute]
  inert s c t hc := by
    have hletter : c ≠ 'e' := fun h => absurd (h ▸ hc) (by decide +kernel)
    have hmark : c ≠ '\u0301' := fun h => absurd (h ▸ hc) (by decide +kernel)
    apply String.toList_injective
    simp [nfc_acute, compose_acute_of_ne hletter, foldr_compose_acute_cons hmark]
  mem_of_mem s c hc hmem := by
    have hcomposed : c ≠ '\u00e9' := fun h => absurd (h ▸ hc) (by decide +kernel)
    rw [nfc_acute, String.toList_ofList] at hmem
    exact mem_foldr_compose_acute hcomposed hmem

/-- The accent is stored in one character with its letter. -/
theorem stored_form_stable_cafe :
    sanitize_tag nfc_acute "cafe\u0301" = "caf\u00e9" ∧
      ∀ tags, "caf\u00e9" ∉ edited_tags nfc_acute [] ["caf\u00e9"]
        (edited_tags nfc_acute ["cafe\u0301"] [] tags) := by
  have hstored : sanitize_tag nfc_acute "cafe\u0301" = "caf\u00e9" := by decide +kernel
  have hstable := (stored_form_stable_iff unicodeNfc_nfc_acute "cafe\u0301").1.mpr
    (by decide +kernel)
  rw [hstored] at hstable
  exact ⟨hstored, hstable.2.2⟩

/-- A null between the letter and the accent: they are stored side by side, and the tag cannot be
removed. -/
theorem stored_form_null :
    sanitize_tag nfc_acute "e\x00\u0301" = "e\u0301" ∧
      nfc_acute "e\u0301" ≠ "e\u0301" ∧ sanitize_tag nfc_acute "e\u0301" = "\u00e9" ∧
      "e\u0301" ∈ edited_tags nfc_acute [] ["e\u0301"]
        (edited_tags nfc_acute ["e\x00\u0301"] [] ∅) := by
  decide +kernel
