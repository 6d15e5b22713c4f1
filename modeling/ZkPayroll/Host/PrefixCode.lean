import Mathlib.Data.List.Basic

/-!
# Prefix codes

Strings that can be taken apart again after they have been strung together: no
code of a value is the beginning of the code of another one.
-/

namespace ZkPayroll.Host

/-- Different values have different codes, and none begins another. -/
structure PrefixCode (encode : α → List β) : Prop where
  injective : Function.Injective encode
  prefixFree : ∀ a b, encode a <+: encode b → encode a = encode b

theorem PrefixCode.append_inj {encode : α → List β} (h : PrefixCode encode)
    (heq : encode a ++ x = encode b ++ y) : a = b ∧ x = y := by
  have hsame : encode a = encode b := by
    rcases Nat.le_total (encode a).length (encode b).length with hle | hle
    · refine h.prefixFree a b (List.prefix_of_prefix_length_le ⟨x, rfl⟩ ?_ hle)
      exact ⟨y, heq.symm⟩
    · refine (h.prefixFree b a (List.prefix_of_prefix_length_le ⟨y, rfl⟩ ?_ hle)).symm
      exact ⟨x, heq⟩
  refine ⟨h.injective hsame, ?_⟩
  rw [hsame] at heq
  exact List.append_cancel_left heq

theorem PrefixCode.of_append_inj {encode : α → List β}
    (h : ∀ a b x y, encode a ++ x = encode b ++ y → a = b ∧ x = y) : PrefixCode encode where
  injective a b heq := (h a b [] [] (by rw [heq])).1
  prefixFree a b := by
    rintro ⟨x, heq⟩
    rw [(h a b x [] (by rw [heq, List.append_nil])).1]

theorem PrefixCode.comp {encode : α → List β} (h : PrefixCode encode) {f : γ → α}
    (hf : Function.Injective f) : PrefixCode (encode ∘ f) where
  injective := h.injective.comp hf
  prefixFree a b := h.prefixFree (f a) (f b)

theorem PrefixCode.of_length {encode : α → List β} (hinj : Function.Injective encode)
    (hlength : ∀ a, (encode a).length = width) : PrefixCode encode where
  injective := hinj
  prefixFree a b hprefix := hprefix.eq_of_length (by rw [hlength, hlength])

/-- A byte string with a mark before each byte and one at its end. -/
def delimited : List UInt8 → List UInt8
  | [] => [0]
  | b :: bytes => 1 :: b :: delimited bytes

theorem prefixCode_delimited : PrefixCode delimited := by
  refine .of_append_inj fun a => ?_
  induction a with
  | nil =>
    intro b x y heq
    cases b with
    | nil => exact ⟨rfl, by simpa [delimited] using heq⟩
    | cons c b => simp [delimited] at heq
  | cons c a ih =>
    intro b x y heq
    cases b with
    | nil => simp [delimited] at heq
    | cons d b =>
      simp only [delimited, List.cons_append, List.cons.injEq, true_and] at heq
      obtain ⟨rfl, hrest⟩ := heq
      obtain ⟨rfl, rfl⟩ := ih b x y hrest
      exact ⟨rfl, rfl⟩

end ZkPayroll.Host
