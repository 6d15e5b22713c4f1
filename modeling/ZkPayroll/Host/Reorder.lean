import Mathlib.Data.List.FinRange

/-!
# Actions in another order

Actions that may fail, on states of which some part does not matter: `E` relates
states that differ in that part only. Where any two actions of a kind can be
exchanged, so can a whole list of them be rearranged; the run goes through in
one order exactly when it does in the other, and ends in the same state up to
`E`.
-/

namespace ZkPayroll.Host

inductive Acts (act : α → σ → σ → Prop) : List α → σ → σ → Prop
  | nil (s : σ) : Acts act [] s s
  | cons (first : act a s t) (rest : Acts act l t u) : Acts act (a :: l) s u

/-- Any two actions of the kind `P` can be exchanged where `I` holds, and `I`
goes on to hold. -/
structure Exchangeable (act : α → σ → σ → Prop) (E : σ → σ → Prop) (I : σ → Prop) (P : α → Prop) :
    Prop where
  equivalence : Equivalence E
  keeps : P a → I s → act a s t → I t
  respects : E s s' → act a s t → ∃ t', act a s' t' ∧ E t t'
  swap : P a → P b → I s → act a s t → act b t u → ∃ t' u', act b s t' ∧ act a t' u' ∧ E u u'

section
variable {act : α → σ → σ → Prop} {E : σ → σ → Prop} {I : σ → Prop} {P : α → Prop}
  {l l' : List α}

theorem Exchangeable.acts_respect (hx : Exchangeable act E I P) (h : Acts act l s u)
    (hE : E s s') : ∃ u', Acts act l s' u' ∧ E u u' := by
  induction h generalizing s' with
  | nil s => exact ⟨s', .nil s', hE⟩
  | cons first _ ih =>
    obtain ⟨t', hfirst, ht⟩ := hx.respects hE first
    obtain ⟨u', hrest, hu⟩ := ih ht
    exact ⟨u', .cons hfirst hrest, hu⟩

theorem Exchangeable.acts_perm (hx : Exchangeable act E I P) (hperm : l.Perm l')
    (hP : ∀ a ∈ l, P a) (hI : I s) (h : Acts act l s u) : ∃ u', Acts act l' s u' ∧ E u u' := by
  induction hperm generalizing s u with
  | nil => exact ⟨u, h, hx.equivalence.refl u⟩
  | cons a _ ih =>
    obtain ⟨ha, hrest⟩ := List.forall_mem_cons.mp hP
    cases h with
    | cons first rest =>
      obtain ⟨u', hacts, hu⟩ := ih hrest (hx.keeps ha hI first) rest
      exact ⟨u', .cons first hacts, hu⟩
  | swap a b l =>
    obtain ⟨hb, ha, -⟩ := List.forall_mem_cons.mp hP |>.imp_right List.forall_mem_cons.mp
    cases h with
    | cons first rest =>
      cases rest with
      | cons second rest =>
        obtain ⟨t', v', hfirst, hsecond, hv⟩ := hx.swap hb ha hI first second
        obtain ⟨u', hacts, hu⟩ := hx.acts_respect rest hv
        exact ⟨u', .cons hfirst (.cons hsecond hacts), hu⟩
  | trans hperm _ ih ih' =>
    obtain ⟨v, hacts, hv⟩ := ih hP hI h
    obtain ⟨u', hacts', hu⟩ := ih' (fun a ha => hP a (hperm.mem_iff.mpr ha)) hI hacts
    exact ⟨u', hacts', hx.equivalence.trans hv hu⟩

end

-- ---------------------------------------------------------------------------
-- Parallel lists
-- ---------------------------------------------------------------------------

def rearranged (σ : Equiv.Perm (Fin n)) (l : List α) : List α :=
  if h : l.length = n then List.ofFn fun i => l.get ((σ i).cast h.symm) else l

section
variable {σ : Equiv.Perm (Fin n)} {l : List α} {l' : List β}

@[simp] theorem length_rearranged (σ : Equiv.Perm (Fin n)) (l : List α) :
    (rearranged σ l).length = l.length := by
  unfold rearranged
  split
  · rename_i h
    rw [List.length_ofFn, h]
  · rfl

theorem rearranged_perm (σ : Equiv.Perm (Fin n)) (l : List α) : (rearranged σ l).Perm l := by
  unfold rearranged
  split
  · rename_i h
    subst h
    simpa [Function.comp_def] using σ.ofFn_comp_perm l.get
  · exact .refl l

theorem getElem?_rearranged (h : l.length = n) (hi : i < n) :
    (rearranged σ l)[i]? = l[(σ ⟨i, hi⟩ : Nat)]? := by
  subst h
  rw [rearranged, dif_pos rfl, List.getElem?_ofFn, dif_pos hi]
  simp

theorem ext_below {l l' : List α} (h : l.length = n) (h' : l'.length = n)
    (hget : ∀ i, i < n → l[i]? = l'[i]?) : l = l' := by
  refine List.ext_getElem? fun i => ?_
  by_cases hi : i < n
  · exact hget i hi
  · rw [List.getElem?_eq_none (by omega), List.getElem?_eq_none (by omega)]

theorem rearranged_map (f : α → β) (h : l.length = n) :
    rearranged σ (l.map f) = (rearranged σ l).map f := by
  refine ext_below (by simpa using h) (by simpa using h) fun i hi => ?_
  rw [getElem?_rearranged (by simpa using h) hi, List.getElem?_map, List.getElem?_map,
    getElem?_rearranged h hi]

theorem rearranged_zip (h : l.length = n) (h' : l'.length = n) :
    rearranged σ (l.zip l') = (rearranged σ l).zip (rearranged σ l') := by
  have hzip : (l.zip l').length = n := by simp [h, h']
  have hzip' : ((rearranged σ l).zip (rearranged σ l')).length = n := by simp [h, h']
  refine ext_below (by simpa using hzip) hzip' fun i hi => ?_
  rw [getElem?_rearranged hzip hi, List.zip_eq_zipWith, List.zip_eq_zipWith, List.getElem?_zipWith,
    List.getElem?_zipWith, getElem?_rearranged h hi, getElem?_rearranged h' hi]

end

end ZkPayroll.Host
