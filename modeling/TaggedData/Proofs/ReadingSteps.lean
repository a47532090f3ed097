import TaggedData.Json.Printer
import TaggedData.Json.Reader.Document
import TaggedData.Proofs.Basic

/-!
# What the readers do, step by step

A reading that succeeds is given by its result and the text it leaves. Strings are read from
their escaped form and integers from their digits. A value is read by its first letter, and a
list or an object by its first element and what is read behind that.
-/

namespace TaggedData
namespace Json

/-- The reading succeeds with `a` and leaves `rest`. -/
def Reading.Gives {α : Type} {s : List Char} (r : Reading α s) (a : α) (rest : List Char) : Prop :=
  ∃ h : rest.length < s.length, r = .ok (a, ⟨rest, h⟩)

theorem skipSpace_cons {c : Char} (h : isSpace c = false) (t : List Char) :
    skipSpace (c :: t) = c :: t := by
  simp [skipSpace, h]

section Strings

variable {c : Char} {cs s t rest : List Char}

theorem hexValue?_digitChar : ∀ d < 16, hexValue? (Nat.digitChar d) = some d := by
  decide

theorem readEscape_hex (h : c.toNat < 0x20) (t : List Char) :
    (readEscape ('u' :: '0' :: '0' :: Nat.digitChar (c.toNat / 16) ::
      Nat.digitChar (c.toNat % 16) :: t)).Gives c t := by
  have high : hexValue? (Nat.digitChar (c.toNat / 16)) = some (c.toNat / 16) :=
    hexValue?_digitChar _ (by omega)
  have low : hexValue? (Nat.digitChar (c.toNat % 16)) = some (c.toNat % 16) :=
    hexValue?_digitChar _ (by omega)
  have zero : hexValue? '0' = some 0 := by decide
  have code : ((0 * 16 + 0) * 16 + c.toNat / 16) * 16 + c.toNat % 16 = c.toNat := by omega
  refine ⟨by simp only [List.length_cons]; omega, ?_⟩
  simp only [readEscape, readHex, zero, high, low, code, bind, Except.bind]
  rw [if_neg (by omega), if_neg (by omega), Char.ofNat_toNat]
  rfl

theorem readString_escape (he : (readEscape s).Gives c t) (h : (readString t).Gives cs rest) :
    (readString ('\\' :: s)).Gives (c :: cs) rest := by
  obtain ⟨hlt, he⟩ := he
  obtain ⟨hrest, h⟩ := h
  refine ⟨by simp only [List.length_cons]; omega, ?_⟩
  rw [readString]
  simp [he, h, Except.map]

theorem readString_plain (hquote : c ≠ '"') (hbackslash : c ≠ '\\') (hcontrol : ¬ c.toNat < 0x20)
    (h : (readString t).Gives cs rest) : (readString (c :: t)).Gives (c :: cs) rest := by
  obtain ⟨hrest, h⟩ := h
  refine ⟨by simp only [List.length_cons]; omega, ?_⟩
  rw [readString]
  simp [hquote, hbackslash, hcontrol, h, Except.map, Rest.weaken]

theorem readString_escapeChar (c : Char) (h : (readString t).Gives cs rest) :
    (readString (escapeChar c ++ t)).Gives (c :: cs) rest := by
  by_cases hnamed : c ∈ ['"', '\\', '\x08', '\x0c', '\n', '\r', '\t']
  · simp only [List.mem_cons, List.not_mem_nil, or_false] at hnamed
    rcases hnamed with rfl | rfl | rfl | rfl | rfl | rfl | rfl
    all_goals exact readString_escape ⟨by simp, rfl⟩ h
  · simp only [List.mem_cons, List.not_mem_nil, or_false, not_or] at hnamed
    obtain ⟨hquote, hbackslash, hb, hf, hn, hr, ht⟩ := hnamed
    by_cases hcontrol : c.toNat < 0x20
    · have hescape : escapeChar c ++ t = '\\' :: 'u' :: '0' :: '0' ::
          Nat.digitChar (c.toNat / 16) :: Nat.digitChar (c.toNat % 16) :: t := by
        simp [escapeChar, hquote, hbackslash, hb, hf, hn, hr, ht, hcontrol]
      rw [hescape]
      exact readString_escape (readEscape_hex hcontrol t) h
    · have hescape : escapeChar c ++ t = c :: t := by
        simp [escapeChar, hquote, hbackslash, hb, hf, hn, hr, ht, hcontrol]
      rw [hescape]
      exact readString_plain hquote hbackslash hcontrol h

theorem readString_escaped (cs rest : List Char) :
    (readString (cs.flatMap escapeChar ++ '"' :: rest)).Gives cs rest := by
  induction cs with
  | nil =>
    change (readString ('"' :: rest)).Gives [] rest
    refine ⟨by simp, ?_⟩
    rw [readString]
    simp
  | cons c cs ih =>
    rw [List.flatMap_cons, List.append_assoc]
    exact readString_escapeChar c ih

end Strings

/-- Nothing that would continue a number. -/
def Ends (rest : List Char) : Prop :=
  ∀ c t, rest = c :: t → c.isDigit = false ∧ c ≠ '.' ∧ c ≠ 'e' ∧ c ≠ 'E'

section Integers

variable {negative : Bool} {digits rest : List Char}

theorem ends_nil : Ends [] := nofun

theorem readNumberTail_of_ends (h : Ends rest) :
    readNumberTail negative digits rest = (wholeNumber negative digits rest).map (·, rest) := by
  cases rest with
  | nil => rfl
  | cons c t =>
    obtain ⟨-, hpoint, he, hE⟩ := h c t rfl
    unfold readNumberTail
    split
    · rename_i heq
      exact absurd (List.cons.inj heq).1 hpoint
    · simp [readNumberEnd, he, hE]

theorem leadingDigits_append (hdigits : ∀ c ∈ digits, c.isDigit = true) (h : Ends rest) :
    leadingDigits (digits ++ rest) = digits ∧ afterDigits (digits ++ rest) = rest := by
  have htake : rest.takeWhile Char.isDigit = [] ∧ rest.dropWhile Char.isDigit = rest := by
    cases rest with
    | nil => exact ⟨rfl, rfl⟩
    | cons c t => simp [(h c t rfl).1]
  rw [leadingDigits, afterDigits, List.takeWhile_append_of_pos hdigits,
    List.dropWhile_append_of_pos hdigits, htake.1, htake.2, List.append_nil]
  exact ⟨rfl, rfl⟩

/-- A row of digits that does not start with a superfluous zero. -/
theorem readNumber_digits (hdigits : ∀ c ∈ digits, c.isDigit = true)
    (hfirst : digits = ['0'] ∨ ∃ c t, digits = c :: t ∧ c ≠ '0') (h : Ends rest) :
    readNumber negative (digits ++ rest) = (wholeNumber negative digits rest).map (·, rest) := by
  rcases hfirst with rfl | ⟨c, t, rfl, hc⟩
  · rw [← readNumberTail_of_ends h]
    cases rest with
    | nil => rfl
    | cons c t => simp [readNumber, (h c t rfl).1]
  · obtain ⟨hleading, hafter⟩ := leadingDigits_append hdigits h
    rw [List.cons_append] at hleading hafter ⊢
    unfold readNumber
    split
    · contradiction
    · rename_i heq
      exact absurd (List.cons.inj heq).1 hc
    · rename_i heq
      cases heq
      rw [if_pos (hdigits c List.mem_cons_self), hleading, hafter, readNumberTail_of_ends h]

theorem toDigits_eq_cons {n : Nat} (hn : n ≠ 0) :
    ∃ c t, Nat.toDigits 10 n = c :: t ∧ c ≠ '0' := by
  have hdigit : ∀ d < 10, d ≠ 0 → Nat.digitChar d ≠ '0' := by decide
  induction n using Nat.strongRecOn with
  | _ n ih =>
    rcases Nat.lt_or_ge n 10 with hlt | hge
    · exact ⟨_, _, Nat.toDigits_of_lt_base hlt, hdigit n hlt hn⟩
    · obtain ⟨c, t, htail, hc⟩ := ih (n / 10) (by omega) (by omega)
      exact ⟨c, _, by rw [Nat.toDigits_of_base_le (by decide) hge, htail, List.cons_append], hc⟩

theorem readNumber_toDigits (negative : Bool) (n : Nat) (h : Ends rest) :
    readNumber negative (Nat.toDigits 10 n ++ rest) =
      (wholeNumber negative (Nat.toDigits 10 n) rest).map (·, rest) := by
  have hdigits : ∀ c ∈ Nat.toDigits 10 n, c.isDigit = true :=
    fun _ hc => Nat.isDigit_of_mem_toDigits (by decide) (by decide) hc
  by_cases hn : n = 0
  · subst hn
    exact readNumber_digits hdigits (.inl rfl) h
  · exact readNumber_digits hdigits (.inr (toDigits_eq_cons hn)) h

theorem natOfDigits_toDigits (n : Nat) : Decimal.natOfDigits (Nat.toDigits 10 n) = n :=
  Nat.ofDigitChars_ten_toDigits

end Integers

section Values

variable {depth index : Nat} {first : Bool} {j : Json} {n : JsonNumber} {items : List Json}
  {fields entries before : Keyed Json} {key : String} {c : Char} {cs s t rest rest' : List Char}

theorem opening_of_isDigit (h : c.isDigit = true) : Opening.of c = .digit := by
  unfold Opening.of
  split
  case h_8 => rw [if_pos h]
  all_goals cases h

theorem isSpace_of_isDigit (h : c.isDigit = true) : isSpace c = false := by
  rw [Bool.eq_false_iff]
  intro hspace
  simp only [isSpace, Bool.or_eq_true, decide_eq_true_eq] at hspace
  rcases hspace with ((rfl | rfl) | rfl) | rfl <;> cases h

theorem readValue_null (rest : List Char) :
    (readValue depth ('n' :: 'u' :: 'l' :: 'l' :: rest)).Gives .null rest := by
  refine ⟨by simp only [List.length_cons]; omega, ?_⟩
  rw [readValue]
  rfl

theorem readValue_true (rest : List Char) :
    (readValue depth ('t' :: 'r' :: 'u' :: 'e' :: rest)).Gives (.bool true) rest := by
  refine ⟨by simp only [List.length_cons]; omega, ?_⟩
  rw [readValue]
  rfl

theorem readValue_false (rest : List Char) :
    (readValue depth ('f' :: 'a' :: 'l' :: 's' :: 'e' :: rest)).Gives (.bool false) rest := by
  refine ⟨by simp only [List.length_cons]; omega, ?_⟩
  rw [readValue]
  rfl

theorem readValue_digit (hc : c.isDigit = true) (h : readNumber false (c :: t) = .ok (n, rest)) :
    (readValue depth (c :: t)).Gives (.number n) rest := by
  refine ⟨length_readNumber h, ?_⟩
  rw [readValue]
  split
  · rename_i heq
    rw [skipSpace_cons (isSpace_of_isDigit hc)] at heq
    cases heq
  · rename_i heq
    rw [skipSpace_cons (isSpace_of_isDigit hc)] at heq
    cases heq
    simp only [opening_of_isDigit hc]
    split
    · rename_i heq
      rw [h] at heq
      cases heq
    · rename_i heq
      cases h.symm.trans heq
      rfl

theorem readValue_minus (h : readNumber true t = .ok (n, rest)) :
    (readValue depth ('-' :: t)).Gives (.number n) rest := by
  have hlt := length_readNumber h
  refine ⟨Nat.lt_succ_of_lt hlt, ?_⟩
  rw [readValue]
  split
  · rename_i heq
    cases heq
  · rename_i heq
    cases heq
    simp only [Opening.of]
    split
    · rename_i heq
      rw [h] at heq
      cases heq
    · rename_i heq
      cases h.symm.trans heq
      rfl

theorem readValue_string (h : (readString t).Gives cs rest) :
    (readValue depth ('"' :: t)).Gives (.string (String.ofList cs)) rest := by
  obtain ⟨hrest, h⟩ := h
  refine ⟨by simp only [List.length_cons]; omega, ?_⟩
  rw [readValue]
  change (readString t).map _ = _
  rw [h]
  rfl

theorem readValue_list (h : (readItems (depth + 1) 0 true t).Gives items rest) :
    (readValue (depth + 2) ('[' :: t)).Gives (.array items) rest := by
  obtain ⟨hrest, h⟩ := h
  refine ⟨by simp only [List.length_cons]; omega, ?_⟩
  rw [readValue]
  change (if depth + 2 ≤ 1 then _ else (readItems (depth + 1) 0 true t).map _) = _
  rw [if_neg (by omega), h]
  rfl

theorem readValue_object (h : (readMembers (depth + 1) true [] t).Gives fields rest) :
    (readValue (depth + 2) ('\x7b' :: t)).Gives (.object fields) rest := by
  obtain ⟨hrest, h⟩ := h
  refine ⟨by simp only [List.length_cons]; omega, ?_⟩
  rw [readValue]
  change (if depth + 2 ≤ 1 then _ else (readMembers (depth + 1) true [] t).map _) = _
  rw [if_neg (by omega), h]
  rfl

theorem nextItem_first {c : Char} (hspace : isSpace c = false) (hclose : c ≠ ']') :
    nextItem true (c :: t) = .ok (.item (c :: t) (Nat.le_refl _)) := by
  unfold nextItem
  split
  · rename_i heq
    rw [skipSpace_cons hspace] at heq
    cases heq
  · rename_i heq
    rw [skipSpace_cons hspace] at heq
    cases heq
    simp [hclose]

theorem nextItem_next {c : Char} (hspace : isSpace c = false) (hclose : c ≠ ']') :
    nextItem false (',' :: c :: t) = .ok (.item (c :: t) (Nat.le_succ _)) := by
  unfold nextItem
  split
  · rename_i heq
    cases heq
  · rename_i heq
    cases heq
    rw [if_neg (by decide), if_neg (by decide), if_pos rfl, skipSpace_cons hspace]
    split
    · rename_i heq
      cases heq
    · rename_i heq
      exact absurd (List.cons.inj heq).1 hclose
    · rfl

theorem readItems_item {ht : t.length ≤ s.length} (hnext : nextItem first s = .ok (.item t ht))
    (hvalue : (readValue depth t).Gives j rest)
    (hrest : (readItems depth (index + 1) false rest).Gives items rest') :
    (readItems depth index first s).Gives (j :: items) rest' := by
  obtain ⟨hlt, hvalue⟩ := hvalue
  obtain ⟨hlt', hrest⟩ := hrest
  refine ⟨by omega, ?_⟩
  rw [readItems, hnext]
  simp only [hvalue, hrest, Except.map]
  rfl

theorem readMembers_member {key : String} {afterColon : List Char} {v : Json}
    {ht : t.length < s.length}
    (hnext : nextMember first s = .ok (.key ⟨t, ht⟩)) {afterKey : List Char}
    (hkey : readKey t = .ok (key, afterKey)) (hcolon : readColon afterKey = .ok afterColon)
    (hvalue : (readValue depth afterColon).Gives v rest)
    (hrest : (readMembers depth false (Keyed.put key v before) rest).Gives fields rest') :
    (readMembers depth first before s).Gives fields rest' := by
  obtain ⟨hlt, hvalue⟩ := hvalue
  obtain ⟨hlt', hrest⟩ := hrest
  have hk := length_readKey hkey
  have hc := length_readColon hcolon
  refine ⟨by simp only at hk; omega, ?_⟩
  rw [readMembers, hnext]
  simp only
  split
  · rename_i e heq
    rw [hkey] at heq
    cases heq
  · rename_i heq
    cases hkey.symm.trans heq
    split
    · rename_i heq
      rw [hcolon] at heq
      cases heq
    · rename_i heq
      cases hcolon.symm.trans heq
      simp only [hvalue, hrest, Except.map]
      rfl

theorem nextMember_first (t : List Char) :
    nextMember true ('"' :: t) = .ok (.key ⟨t, Nat.lt_succ_self _⟩) :=
  rfl

theorem nextMember_next (t : List Char) : nextMember false (',' :: '"' :: t) =
    .ok (.key ⟨t, Nat.lt_succ_of_lt (Nat.lt_succ_self _)⟩) :=
  rfl

theorem readKey_quoted (key : String) (rest : List Char) :
    readKey (key.toList.flatMap escapeChar ++ '"' :: rest) = .ok (key, rest) := by
  obtain ⟨_, h⟩ := readString_escaped key.toList rest
  simp [readKey, h]

theorem readColon_cons (t : List Char) : readColon (':' :: t) = .ok t :=
  rfl

end Values

end Json
end TaggedData
