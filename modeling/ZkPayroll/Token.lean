import ZkPayroll.Env

/-!
# The token contract

`contracts/token`: balances, `mint` and `transfer`. The transfer reads the
receiver's balance after it has written the sender's, so a transfer to
oneself changes nothing.
-/

namespace ZkPayroll.Token

open Host

inductive DataKey
  | balance (id : Address)
  deriving DecidableEq

abbrev DataKey.Val : DataKey → Type
  | .balance _ => Int

abbrev Storage := Store DataKey.Val

def balance (s : Storage) (id : Address) : Int := (s.get (.balance id)).getD 0

def mint (s : Storage) (dest : Address) (amount : Int) : Result Storage := do
  ensure (0 ≤ amount) "Mint amount must be non-negative"
  let sum ← addI128 (balance s dest) amount
  return s.set (.balance dest) sum

def transfer (s : Storage) (source dest : Address) (amount : Int) : Result Storage := do
  ensure (0 ≤ amount) "Transfer amount must be non-negative"
  ensure (amount ≤ balance s source) "Insufficient balance"
  let debited ← subI128 (balance s source) amount
  let s := s.set (.balance source) debited
  let credited ← addI128 (balance s dest) amount
  return s.set (.balance dest) credited

inductive Call
  | initializeToken
  | mint (dest : Address) (amount : Int)
  | transfer (source dest : Address) (amount : Int)

/-- The token's `initialize` is a placeholder and writes nothing. -/
def exec (s : Storage) : Call → Result Storage
  | .initializeToken => pure s
  | .mint dest amount => mint s dest amount
  | .transfer source dest amount => transfer s source dest amount

-- ---------------------------------------------------------------------------
-- Balances after a call
-- ---------------------------------------------------------------------------

theorem balance_set (s : Storage) (a b : Address) (x : Int) :
    balance (s.set (.balance a) x) b = if b = a then x else balance s b := by
  unfold balance
  split
  · rename_i h; subst h; simp
  · rename_i h
    rw [Store.get_set_ne]
    simpa using h

theorem transfer_iff {s s' : Storage} : transfer s source dest amount = .ok s' ↔
    0 ≤ amount ∧ amount ≤ balance s source ∧ InI128 (balance s source - amount) ∧
      InI128 (balance (s.set (.balance source) (balance s source - amount)) dest + amount) ∧
      s' = (s.set (.balance source) (balance s source - amount)).set (.balance dest)
        (balance (s.set (.balance source) (balance s source - amount)) dest + amount) := by
  simp only [transfer, bind_ok, ensure_ok, subI128_ok, addI128_ok, pure_ok, exists_const, and_assoc,
    exists_and_left, exists_eq_left]

/-- A transfer moves exactly its amount, and nothing when both ends are the
same address. -/
theorem transfer_ok {s s' : Storage} (h : transfer s source dest amount = .ok s') :
    0 ≤ amount ∧ amount ≤ balance s source ∧ ∀ a, balance s' a =
      balance s a - (if a = source then amount else 0) + (if a = dest then amount else 0) := by
  obtain ⟨hpos, hle, -, -, rfl⟩ := transfer_iff.mp h
  refine ⟨hpos, hle, fun a => ?_⟩
  simp only [balance_set]
  split_ifs <;> simp_all

theorem mint_ok {s s' : Storage} (h : mint s dest amount = .ok s') :
    0 ≤ amount ∧ InI128 (balance s dest + amount) ∧
      ∀ a, balance s' a = balance s a + if a = dest then amount else 0 := by
  simp only [mint, bind_ok, ensure_ok, addI128_ok, pure_ok] at h
  obtain ⟨_, hpos, sum, ⟨hfit, rfl⟩, rfl⟩ := h
  refine ⟨hpos, hfit, fun a => ?_⟩
  rw [balance_set]
  split_ifs <;> simp_all

/-- The transfer goes through when the sender can pay and the receiver's
balance can hold the amount; a transfer to oneself needs no room. -/
theorem transfer_succeeds {s : Storage} (hmax : balance s source ≤ i128Max) (hpos : 0 ≤ amount)
    (hle : amount ≤ balance s source)
    (hfit : dest ≠ source → InI128 (balance s dest + amount)) :
    ∃ s', transfer s source dest amount = .ok s' := by
  have hmin : i128Min ≤ 0 := by decide
  refine ⟨_, transfer_iff.mpr ⟨hpos, hle, ⟨by omega, by omega⟩, ?_, rfl⟩⟩
  rw [balance_set]
  split_ifs with h
  · exact ⟨by omega, by omega⟩
  · exact hfit h

theorem transfer_fits {s s' : Storage} (h : transfer s source dest amount = .ok s')
    (hne : dest ≠ source) : InI128 (balance s dest + amount) := by
  obtain ⟨-, -, -, hfit, -⟩ := transfer_iff.mp h
  simpa [balance_set, hne] using hfit

def Sane (s : Storage) : Prop := ∀ a, 0 ≤ balance s a ∧ balance s a ≤ i128Max

theorem sane_empty : Sane Store.empty := by
  intro a
  simp [balance, i128Max]

theorem transfer_sane {s s' : Storage} (hs : Sane s) (h : transfer s source dest amount = .ok s') :
    Sane s' := by
  intro a
  obtain ⟨hpos, hle, hbal⟩ := transfer_ok h
  rw [hbal a]
  have ha := hs a
  by_cases hd : a = dest
  · subst hd
    by_cases hsrc : a = source
    · simpa [hsrc] using hsrc ▸ ha
    · have hfit := (transfer_fits h hsrc).2
      simp only [hsrc, if_false, if_true]
      omega
  · by_cases hsrc : a = source
    · subst hsrc
      simp only [hd, if_false, if_true]
      omega
    · simpa [hd, hsrc] using ha

theorem exec_sane {s s' : Storage} (hs : Sane s) (h : exec s c = .ok s') : Sane s' := by
  cases c with
  | initializeToken =>
    simp only [exec, pure_ok] at h
    exact h ▸ hs
  | mint dest amount =>
    obtain ⟨hpos, hfit, hbal⟩ := mint_ok h
    intro a
    have ha := hs a
    rw [hbal a]
    split_ifs with hd
    · subst hd
      exact ⟨by omega, hfit.2⟩
    · simpa using ha
  | transfer source dest amount => exact transfer_sane hs h

-- ---------------------------------------------------------------------------
-- Two transfers
-- ---------------------------------------------------------------------------

theorem transfer_get {s s' : Storage} (h : transfer s source dest amount = .ok s')
    (hne : dest ≠ source) (c : Address) : s'.get (.balance c) =
      if c = dest then some (balance s dest + amount)
      else if c = source then some (balance s source - amount)
      else s.get (.balance c) := by
  obtain ⟨-, -, -, -, rfl⟩ := transfer_iff.mp h
  rw [balance_set, if_neg hne]
  by_cases hdest : c = dest
  · subst hdest
    simp
  · by_cases hsource : c = source
    · subst hsource
      simp [hdest]
    · simp [hdest, hsource]

theorem transfer_swap {s s₁ s₂ : Storage} (hsane : Sane s) (ha : a ≠ source) (hb : b ≠ source)
    (hab : a ≠ b) (h₁ : transfer s source a x = .ok s₁) (h₂ : transfer s₁ source b y = .ok s₂) :
    ∃ t, transfer s source b y = .ok t ∧ transfer t source a x = .ok s₂ := by
  obtain ⟨hx, -, hbalance₁⟩ := transfer_ok h₁
  obtain ⟨hy, hle, -⟩ := transfer_ok h₂
  have hsource₁ : balance s₁ source = balance s source - x := by
    simp [hbalance₁, Ne.symm ha]
  have hb₁ : balance s₁ b = balance s b := by
    simp [hbalance₁, hb, Ne.symm hab]
  have hfits : InI128 (balance s b + y) := hb₁ ▸ transfer_fits h₂ hb
  rw [hsource₁] at hle
  obtain ⟨t, ht⟩ := transfer_succeeds (hsane source).2 hy (by omega) fun _ => hfits
  obtain ⟨-, -, hbalance⟩ := transfer_ok ht
  have hsource : balance t source = balance s source - y := by
    simp [hbalance, Ne.symm hb]
  have hat : balance t a = balance s a := by
    simp [hbalance, ha, hab]
  have hfits' : InI128 (balance t a + x) := hat ▸ transfer_fits h₁ ha
  obtain ⟨u, hu⟩ := transfer_succeeds (transfer_sane hsane ht source).2 hx (by omega)
    fun _ => hfits'
  have hsame : u = s₂ := by
    refine Store.ext_get fun k => ?_
    obtain ⟨c⟩ := k
    rw [transfer_get hu ha, transfer_get h₂ hb, transfer_get ht hb, transfer_get h₁ ha, hsource₁,
      hb₁, hsource, hat, sub_right_comm]
    by_cases hca : c = a
    · subst hca
      simp [ha, hab]
    · by_cases hcs : c = source
      · subst hcs
        simp [Ne.symm ha, Ne.symm hb]
      · simp [hca, hcs]
  exact ⟨t, ht, hsame ▸ hu⟩

end ZkPayroll.Token
