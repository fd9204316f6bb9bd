import Mathlib.Data.List.TakeWhile
import ProximityNet.Json.Reader
import ProximityNet.Json.Writer

/-!
# Numbers as words of a JSON text

A number is written as one word: nothing that spells a number has a blank, a mark or a quote in it,
and none of the three names does.  A natural number of 64 bits is read back from its digits; of a
float this is said by `JsonNumber.ReadsBack`.

* `JsonNumber.ReadsBack` — the text of a number reads as that number;
* `natural_readsBack` — so do all natural numbers of 64 bits;
* `isFinite_of_readsBack` — no float does that is not finite;
* `isWordChar_of_ofChars?`, `ofWord?_of_ofChars?` — what spells a number is a word that is no name.
-/

namespace ProximityNet

/-- The text that is written for a number reads as that number. -/
def JsonNumber.ReadsBack (n : JsonNumber) : Prop :=
  JsonNumber.ofChars? (Json.numberText n).toList = some n

instance (n : JsonNumber) : Decidable n.ReadsBack := inferInstanceAs (Decidable (_ = _))

/-! ### Natural numbers -/

namespace NumberText

theorem valueOf_digits (cs : List Char) : valueOf (digits cs) = Nat.ofDigitChars 10 cs 0 := by
  rw [valueOf, digits, List.foldl_map]
  rfl

/-- A positive number does not begin with a zero. -/
theorem head_toDigits_ne {n : Nat} (h : 0 < n) : (Nat.toDigits 10 n).head? ≠ some '0' := by
  induction n using Nat.strongRecOn with
  | ind n ih =>
    by_cases hsmall : n < 10
    · rw [Nat.toDigits_of_lt_base hsmall]
      have hall : ∀ d < 10, 0 < d → [Nat.digitChar d].head? ≠ some '0' := by decide
      exact hall n hsmall h
    · have hbefore := ih (n / 10) (by omega) (by omega)
      rw [Nat.toDigits_of_base_le (by decide) (by omega), List.head?_append]
      cases hhead : (Nat.toDigits 10 (n / 10)).head? with
      | none => exact absurd (List.head?_eq_none_iff.mp hhead) Nat.toDigits_ne_nil
      | some c =>
        rw [hhead] at hbefore
        exact hbefore

/-- A row of digits that does not begin with a zero, or is one zero, spells a whole number. -/
theorem ofChars?_row {cs : List Char} (hne : cs ≠ []) (hdigit : ∀ c ∈ cs, c.isDigit = true)
    (hzero : ∀ c rest, cs ≠ '0' :: c :: rest) :
    ofChars? cs = some ⟨false, digits cs, none, none⟩ := by
  have hsign : ∀ rest, cs = '-' :: rest → False := by
    rintro rest rfl
    exact absurd (hdigit '-' List.mem_cons_self) (by decide)
  have htake := List.takeWhile_eq_self_iff.mpr hdigit
  have hdrop := List.dropWhile_eq_nil_iff.mpr hdigit
  rw [ofChars?]
  case x => exact hsign
  rw [htake, hdrop]
  split
  case h_1 => exact absurd rfl hne
  case h_2 c rest => exact absurd rfl (hzero c rest)
  case h_3 => rfl

/-- The digits of a natural number spell it. -/
theorem ofChars?_toDigits (n : Nat) :
    ofChars? (Nat.toDigits 10 n) = some ⟨false, digits (Nat.toDigits 10 n), none, none⟩ := by
  refine ofChars?_row Nat.toDigits_ne_nil
    (fun c hc => Nat.isDigit_of_mem_toDigits (by decide) (by decide) hc) fun c rest heq => ?_
  rcases Nat.eq_zero_or_pos n with rfl | hpos
  · cases heq
  · exact head_toDigits_ne hpos (congrArg List.head? heq)

end NumberText

/-- A natural number of 64 bits is read back. -/
theorem natural_readsBack {n : Nat} (h : n < NumberText.wordSize) :
    (JsonNumber.integer n).ReadsBack := by
  have htext : (Json.numberText (.integer n)).toList = Nat.toDigits 10 n := by
    rw [Json.numberText, if_neg (by omega), Int.natAbs_natCast, Nat.repr, String.toList_ofList]
  have hvalue : NumberText.valueOf (NumberText.digits (Nat.toDigits 10 n)) = n := by
    rw [NumberText.valueOf_digits, Nat.ofDigitChars_toDigits (by decide) (by decide)]
  rw [JsonNumber.ReadsBack, JsonNumber.ofChars?, htext, NumberText.ofChars?_toDigits,
    Option.map_some, NumberText.value]
  simp [NumberText.toInt?, hvalue, h]

/-! ### Floats -/

/-- A float need not be: the digits and the power of ten are rounded apart from each other. -/
example : ¬ (JsonNumber.float 1.021e-27).ReadsBack := by decide +kernel

/-- What is not finite is written as a name and not as a number. -/
theorem JsonNumber.isFinite_of_readsBack {x : Float} (h : (JsonNumber.float x).ReadsBack) :
    x.isFinite = true := by
  rw [ReadsBack, Json.numberText, FloatLayout.text] at h
  show x.toModel.unpack.isFinite = true
  cases hx : x.toModel.unpack with
  | notANumber =>
    rw [hx] at h
    cases h
  | infinity s =>
    rw [hx] at h
    cases s <;> cases h
  | zero s => rfl
  | finite => rfl

/-! ### What spells a number -/

namespace JsonToken

theorem isWordChar_of_isDigit {c : Char} (h : c.isDigit = true) : isWordChar c = true := by
  simp [isWordChar, Char.isAlphanum, h]

theorem isWordChar_of_digits {cs : List Char} (h : cs.all Char.isDigit = true) :
    ∀ c ∈ cs, isWordChar c = true :=
  fun c hc => isWordChar_of_isDigit (List.all_eq_true.mp h c hc)

/-- Digits and what follows them. -/
theorem isWordChar_of_rest {cs : List Char}
    (h : ∀ c ∈ cs.dropWhile Char.isDigit, isWordChar c = true) : ∀ c ∈ cs, isWordChar c = true := by
  intro c hc
  rw [← List.takeWhile_append_dropWhile (p := Char.isDigit) (l := cs)] at hc
  rcases List.mem_append.mp hc with htake | hdrop
  · exact isWordChar_of_isDigit (List.mem_takeWhile_imp htake)
  · exact h c hdrop

theorem isWordChar_of_exponentOf? {cs : List Char} {e : Int}
    (h : NumberText.exponentOf? cs = some e) : ∀ c ∈ cs, isWordChar c = true := by
  have hdigits : ∀ {ds : List Char} {x : Int},
      (if ds.isEmpty || !ds.all Char.isDigit then none else some x) = some e →
      ∀ c ∈ ds, isWordChar c = true := by
    intro ds x h
    split at h
    · cases h
    · rename_i hds
      simp only [Bool.or_eq_true, Bool.not_eq_true', not_or, Bool.not_eq_false] at hds
      exact isWordChar_of_digits hds.2
  rw [NumberText.exponentOf?.eq_def] at h
  split at h
  rename_i negative ds hsplit
  split at hsplit <;> cases hsplit
  · exact List.forall_mem_cons.mpr ⟨by decide, hdigits h⟩
  · exact List.forall_mem_cons.mpr ⟨by decide, hdigits h⟩
  · exact hdigits h

theorem isWordChar_of_exponentPart? {cs : List Char} {e : Option Int}
    (h : NumberText.exponentPart? cs = some e) : ∀ c ∈ cs, isWordChar c = true := by
  rw [NumberText.exponentPart?.eq_def] at h
  split at h
  · exact List.forall_mem_nil _
  · obtain ⟨e', he, -⟩ := Option.map_eq_some_iff.mp h
    exact List.forall_mem_cons.mpr ⟨by decide, isWordChar_of_exponentOf? he⟩
  · obtain ⟨e', he, -⟩ := Option.map_eq_some_iff.mp h
    exact List.forall_mem_cons.mpr ⟨by decide, isWordChar_of_exponentOf? he⟩
  · cases h

theorem isWordChar_of_fractionPart? {cs : List Char} {p : Option (List Nat) × Option Int}
    (h : NumberText.fractionPart? cs = some p) : ∀ c ∈ cs, isWordChar c = true := by
  rw [NumberText.fractionPart?.eq_def] at h
  split at h
  · dsimp only at h
    split at h
    · cases h
    · obtain ⟨e, he, -⟩ := Option.map_eq_some_iff.mp h
      exact List.forall_mem_cons.mpr
        ⟨by decide, isWordChar_of_rest (isWordChar_of_exponentPart? he)⟩
  · obtain ⟨e, he, -⟩ := Option.map_eq_some_iff.mp h
    exact isWordChar_of_exponentPart? he

/-- What spells a number is a word. -/
theorem isWordChar_of_ofChars? {cs : List Char} {n : JsonNumber}
    (h : JsonNumber.ofChars? cs = some n) : cs ≠ [] ∧ ∀ c ∈ cs, isWordChar c = true := by
  obtain ⟨t, ht, -⟩ := Option.map_eq_some_iff.mp h
  refine ⟨?_, ?_⟩
  · rintro rfl
    cases ht
  rw [NumberText.ofChars?.eq_def] at ht
  split at ht
  rename_i negative ds hsplit
  have hds : ∀ c ∈ ds, isWordChar c = true := by
    dsimp only at ht
    split at ht
    · cases ht
    · cases ht
    · obtain ⟨p, hp, -⟩ := Option.map_eq_some_iff.mp ht
      exact isWordChar_of_rest (isWordChar_of_fractionPart? hp)
  split at hsplit <;> cases hsplit
  · exact List.forall_mem_cons.mpr ⟨by decide, hds⟩
  · exact hds

/-- What spells a number is none of the names. -/
theorem ofWord?_of_ofChars? {cs : List Char} {n : JsonNumber}
    (h : JsonNumber.ofChars? cs = some n) : ofWord? cs = some (.scalar (.number n)) := by
  have hname : ∀ name, JsonNumber.ofChars? name = none → cs ≠ name := by
    rintro name hnone rfl
    rw [hnone] at h
    cases h
  rw [ofWord?, if_neg (hname _ (by rfl)), if_neg (hname _ (by rfl)), if_neg (hname _ (by rfl)), h]
  rfl

end JsonToken

end ProximityNet
