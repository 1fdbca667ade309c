import Mathlib.Data.List.Perm.Basic
import Mathlib.Data.UInt
import Mathlib.Logic.Function.Basic

/-!
# Lib.Table

Lookups in ordered maps whose comparison is equality of keys, the effect of a loop that erases (or
inserts) one key after another, and maps whose values carry their own keys.

`sum_insert`: a sum over the entries after one of them is written. `sum_le_length`: a bound on a sum
that counts.

`perm_values_insertAll`, `insertAll_values`: a list without two values of one key and the map made
from it are the same thing, up to the order of the list.
-/

namespace Table

open Std

variable {κ α β : Type} {cmp : κ → κ → Ordering} [TransCmp cmp] [LawfulEqCmp cmp]

section DecidableKeys

variable [DecidableEq κ]

theorem get_insert (t : ExtTreeMap κ α cmp) (k a : κ) (v : α) :
    (t.insert k v)[a]? = if k = a then some v else t[a]? := by
  rw [ExtTreeMap.getElem?_insert]
  exact if_congr LawfulEqCmp.compare_eq_iff_eq rfl rfl

theorem get_erase (t : ExtTreeMap κ α cmp) (k a : κ) :
    (t.erase k)[a]? = if k = a then none else t[a]? := by
  rw [ExtTreeMap.getElem?_erase]
  exact if_congr LawfulEqCmp.compare_eq_iff_eq rfl rfl

theorem get_modify (t : ExtTreeMap κ α cmp) (k a : κ) (f : α → α) :
    (t.modify k f)[a]? = if k = a then t[a]?.map f else t[a]? := by
  rw [ExtTreeMap.getElem?_modify]
  by_cases h : k = a
  · subst h; simp [ReflCmp.compare_self]
  · rw [if_neg h, if_neg fun e => h (LawfulEqCmp.compare_eq_iff_eq.mp e)]

section Lookup

variable {t : ExtTreeMap κ α cmp} {k a : κ} {v w : α}

theorem of_insert (h : (t.insert k v)[a]? = some w) : (k = a ∧ v = w) ∨ t[a]? = some w := by
  rw [get_insert] at h
  by_cases ha : k = a
  · rw [if_pos ha] at h
    exact .inl ⟨ha, Option.some.inj h⟩
  · rw [if_neg ha] at h
    exact .inr h

theorem of_erase (h : (t.erase k)[a]? = some w) : t[a]? = some w := by
  rw [get_erase] at h
  by_cases ha : k = a
  · rw [if_pos ha] at h
    cases h
  · rwa [if_neg ha] at h

theorem of_modify {f : α → α} (h : (t.modify k f)[a]? = some w) :
    (k = a ∧ ∃ v, t[a]? = some v ∧ f v = w) ∨ t[a]? = some w := by
  rw [get_modify] at h
  by_cases ha : k = a
  · rw [if_pos ha] at h
    exact .inl ⟨ha, Option.map_eq_some_iff.mp h⟩
  · rw [if_neg ha] at h
    exact .inr h

end Lookup

/-- The same for a partial function that is given one value. -/
theorem of_update {ι γ : Type*} [DecidableEq ι] {f : ι → Option γ} {i j : ι} {v w : γ}
    (h : Function.update f i (some v) j = some w) : (j = i ∧ v = w) ∨ (j ≠ i ∧ f j = some w) := by
  by_cases hj : j = i
  · rw [hj, Function.update_self] at h
    exact .inl ⟨hj, Option.some.inj h⟩
  · rw [Function.update_of_ne hj] at h
    exact .inr ⟨hj, h⟩

theorem insert_eq_self {t : ExtTreeMap κ α cmp} {k : κ} {v : α} :
    t.insert k v = t ↔ t[k]? = some v := by
  constructor
  · intro h
    rw [← h, get_insert, if_pos rfl]
  · intro h
    refine ExtTreeMap.ext_getElem? fun a => ?_
    rw [get_insert]
    by_cases ha : k = a
    · rw [if_pos ha, ← ha, h]
    · rw [if_neg ha]

theorem modify_eq_self {t : ExtTreeMap κ α cmp} {k : κ} {f : α → α} :
    t.modify k f = t ↔ ∀ v, t[k]? = some v → f v = v := by
  constructor
  · intro h v hv
    have hk : (t.modify k f)[k]? = some v := by rw [h, hv]
    rw [get_modify, if_pos rfl, hv] at hk
    exact Option.some.inj hk
  · intro h
    refine ExtTreeMap.ext_getElem? fun a => ?_
    rw [get_modify]
    by_cases ha : k = a
    · rw [if_pos ha, ← ha]
      cases hv : t[k]? with
      | none => rfl
      | some v => rw [Option.map_some, h v hv]
    · rw [if_neg ha]

theorem modify_eq_insert {t : ExtTreeMap κ α cmp} {k : κ} {v : α} (h : t[k]? = some v)
    (f : α → α) : t.modify k f = t.insert k (f v) := by
  refine ExtTreeMap.ext_getElem? fun a => ?_
  rw [get_modify, get_insert]
  by_cases ha : k = a
  · rw [if_pos ha, if_pos ha, ← ha, h]
    rfl
  · rw [if_neg ha, if_neg ha]

theorem modify_comm (t : ExtTreeMap κ α cmp) {j k : κ} (h : j ≠ k) (f g : α → α) :
    (t.modify j f).modify k g = (t.modify k g).modify j f := by
  refine ExtTreeMap.ext_getElem? fun a => ?_
  simp only [get_modify]
  by_cases hk : k = a
  · have hj : j ≠ a := fun hj => h (hj.trans hk.symm)
    rw [if_pos hk, if_pos hk, if_neg hj, if_neg hj]
  · rw [if_neg hk, if_neg hk]

theorem modify_modify (t : ExtTreeMap κ α cmp) (k : κ) (f g : α → α) :
    (t.modify k f).modify k g = t.modify k fun v => g (f v) := by
  refine ExtTreeMap.ext_getElem? fun a => ?_
  simp only [get_modify]
  split
  · rw [Option.map_map]
    rfl
  · rfl

theorem get_eraseAll_of_not_mem {ks : List κ} {a : κ} (h : a ∉ ks) (t : ExtTreeMap κ α cmp) :
    (ks.foldl (fun t k => t.erase k) t)[a]? = t[a]? := by
  induction ks generalizing t with
  | nil => rfl
  | cons k ks ih =>
    obtain ⟨hne, hks⟩ := not_or.mp fun e => h (List.mem_cons.mpr e)
    rw [List.foldl_cons, ih hks, get_erase, if_neg (Ne.symm hne)]

theorem get_eraseAll_of_mem {ks : List κ} {a : κ} (h : a ∈ ks) (t : ExtTreeMap κ α cmp) :
    (ks.foldl (fun t k => t.erase k) t)[a]? = none := by
  induction ks generalizing t with
  | nil => cases h
  | cons k ks ih =>
    rw [List.foldl_cons]
    by_cases hks : a ∈ ks
    · exact ih hks _
    · obtain rfl : a = k := (List.mem_cons.mp h).resolve_right hks
      rw [get_eraseAll_of_not_mem hks, get_erase, if_pos rfl]

end DecidableKeys

/-- The keys of the entries whose value passes `p`, in key order. -/
def keysWhere (t : ExtTreeMap κ α cmp) (p : α → Bool) : List κ :=
  (t.toList.filter fun kv => p kv.2).map Prod.fst

theorem mem_keysWhere {t : ExtTreeMap κ α cmp} {p : α → Bool} {a : κ} :
    a ∈ keysWhere t p ↔ ∃ v, t[a]? = some v ∧ p v = true := by
  simp only [keysWhere, List.mem_map, List.mem_filter, Prod.exists]
  constructor
  · rintro ⟨k, v, ⟨hmem, hp⟩, rfl⟩
    exact ⟨v, ExtTreeMap.mem_toList_iff_getElem?_eq_some.mp hmem, hp⟩
  · rintro ⟨v, hget, hp⟩
    exact ⟨a, v, ⟨ExtTreeMap.mem_toList_iff_getElem?_eq_some.mpr hget, hp⟩, rfl⟩

omit [LawfulEqCmp cmp] in
theorem values_eq (t : ExtTreeMap κ α cmp) : t.values = t.toList.map Prod.snd := by
  have hfold : t.values = t.foldr (fun _ v vs => v :: vs) [] := by
    obtain ⟨⟨q⟩⟩ := t
    induction q using Quotient.inductionOn with
    | h m => rfl
  rw [hfold, ExtTreeMap.foldr_eq_foldr_toList]
  induction t.toList with
  | nil => rfl
  | cons kv kvs ih => rw [List.foldr_cons, List.map_cons, ih]

omit [LawfulEqCmp cmp] in
theorem length_values (t : ExtTreeMap κ α cmp) : t.values.length = t.size := by
  rw [values_eq, List.length_map, ExtTreeMap.length_toList]

theorem mem_values {t : ExtTreeMap κ α cmp} {a : α} :
    a ∈ t.values ↔ ∃ k : κ, t[k]? = some a := by
  simp only [values_eq, List.mem_map, Prod.exists, exists_eq_right,
    ExtTreeMap.mem_toList_iff_getElem?_eq_some]

theorem mem_keys {t : ExtTreeMap κ α cmp} {k : κ} {v : α} (h : t[k]? = some v) : k ∈ t.keys := by
  rw [ExtTreeMap.mem_keys, ExtTreeMap.mem_iff_isSome_getElem?, h]
  rfl

theorem insertIfNew_eq [DecidableEq κ] (t : ExtTreeMap κ α cmp) (k : κ) (v : α) :
    t.insertIfNew k v = if t[k]? = none then t.insert k v else t := by
  refine ExtTreeMap.ext_getElem? fun a => ?_
  have hmem : t[k]? = none ↔ k ∉ t := by
    rw [ExtTreeMap.mem_iff_isSome_getElem?, Option.not_isSome_iff_eq_none]
  rw [ExtTreeMap.getElem?_insertIfNew]
  by_cases hk : k ∈ t
  · rw [if_neg fun h => h.2 hk, if_neg fun h => hmem.mp h hk]
  · rw [if_pos (hmem.mpr hk), get_insert]
    exact if_congr ((and_iff_left hk).trans LawfulEqCmp.compare_eq_iff_eq) rfl rfl

/-! ## Sums over the entries -/

section Sum

def sum (f : κ → α → ℕ) (t : ExtTreeMap κ α cmp) : ℕ := (t.toList.map fun kv => f kv.1 kv.2).sum

variable (f : κ → α → ℕ)

omit [LawfulEqCmp cmp] in
theorem sum_empty : sum f (∅ : ExtTreeMap κ α cmp) = 0 := by
  rw [sum, ExtTreeMap.toList_eq_nil_iff.mpr rfl]
  rfl

omit [LawfulEqCmp cmp] in
theorem nodup_toList (t : ExtTreeMap κ α cmp) : t.toList.Nodup := by
  refine (ExtTreeMap.ordered_keys_toList (t := t)).imp ?_
  rintro x _ hlt rfl
  have heq : cmp x.1 x.1 = .eq := ReflCmp.compare_self
  rw [heq] at hlt
  cases hlt

theorem sum_eq_zero_iff {t : ExtTreeMap κ α cmp} :
    sum f t = 0 ↔ ∀ k v, t[k]? = some v → f k v = 0 := by
  rw [sum, List.sum_eq_zero_iff_forall_eq_nat]
  constructor
  · intro h k v hv
    exact h _ (List.mem_map.mpr ⟨(k, v), ExtTreeMap.mem_toList_iff_getElem?_eq_some.mpr hv, rfl⟩)
  · intro h x hx
    obtain ⟨⟨k, v⟩, hmem, rfl⟩ := List.mem_map.mp hx
    exact h k v (ExtTreeMap.mem_toList_iff_getElem?_eq_some.mp hmem)

/-- Entries that count for at most one, each with a mark of its own among `marks`, count for no more
than there are marks. -/
theorem sum_le_length {γ : Type} (mark : κ → γ) {t : ExtTreeMap κ α cmp} {marks : List γ}
    (hone : ∀ k v, t[k]? = some v → f k v ≤ 1)
    (hmark : ∀ k v, t[k]? = some v → f k v ≠ 0 → mark k ∈ marks)
    (hinj : ∀ k v k' v', t[k]? = some v → f k v ≠ 0 → t[k']? = some v' → f k' v' ≠ 0 →
      mark k = mark k' → k = k') : sum f t ≤ marks.length := by
  have hget : ∀ kv ∈ t.toList, t[kv.1]? = some kv.2 := fun kv hkv =>
    ExtTreeMap.mem_toList_iff_getElem?_eq_some.mp hkv
  have hcount (kvs : List (κ × α)) (h : ∀ kv ∈ kvs, f kv.1 kv.2 ≤ 1) :
      (kvs.map fun kv => f kv.1 kv.2).sum ≤ (kvs.filter fun kv => f kv.1 kv.2 ≠ 0).length := by
    induction kvs with
    | nil => simp
    | cons kv kvs ih =>
      have hhead := h kv (by simp)
      have htail := ih fun x hx => h x (List.mem_cons_of_mem _ hx)
      by_cases hzero : f kv.1 kv.2 = 0
      · simpa [hzero] using htail
      · simp only [List.map_cons, List.sum_cons, List.filter_cons, decide_eq_true hzero, if_true,
          List.length_cons]
        omega
  have hnodup : ((t.toList.filter fun kv => f kv.1 kv.2 ≠ 0).map fun kv => mark kv.1).Nodup := by
    refine List.Nodup.map_on ?_ ((nodup_toList t).filter _)
    intro x hx y hy hxy
    obtain ⟨hx, hxne⟩ := List.mem_filter.mp hx
    obtain ⟨hy, hyne⟩ := List.mem_filter.mp hy
    have hkey : x.1 = y.1 := hinj _ _ _ _ (hget x hx) (of_decide_eq_true hxne) (hget y hy)
      (of_decide_eq_true hyne) hxy
    have hval : some x.2 = some y.2 := by rw [← hget x hx, ← hget y hy, hkey]
    exact Prod.ext hkey (Option.some.inj hval)
  have hsub : ∀ m ∈ (t.toList.filter fun kv => f kv.1 kv.2 ≠ 0).map fun kv => mark kv.1,
      m ∈ marks := by
    intro m hm
    obtain ⟨kv, hkv, rfl⟩ := List.mem_map.mp hm
    obtain ⟨hkv, hne⟩ := List.mem_filter.mp hkv
    exact hmark _ _ (hget kv hkv) (of_decide_eq_true hne)
  have hlength := (hnodup.subperm hsub).length_le
  rw [List.length_map] at hlength
  exact (hcount t.toList fun kv hkv => hone _ _ (hget kv hkv)).trans hlength

variable [DecidableEq κ]

/-- The entries under other keys than `k`. -/
def entriesBut (t : ExtTreeMap κ α cmp) (k : κ) : List (κ × α) :=
  t.toList.filter fun kv => kv.1 ≠ k

theorem mem_entriesBut {t : ExtTreeMap κ α cmp} {k : κ} {kv : κ × α} :
    kv ∈ entriesBut t k ↔ t[kv.1]? = some kv.2 ∧ kv.1 ≠ k := by
  obtain ⟨a, v⟩ := kv
  simp [entriesBut, ExtTreeMap.mem_toList_iff_getElem?_eq_some]

theorem perm_toList_insert (t : ExtTreeMap κ α cmp) (k : κ) (v : α) :
    (t.insert k v).toList.Perm ((k, v) :: entriesBut t k) := by
  have hnodup : ((k, v) :: entriesBut t k).Nodup :=
    List.nodup_cons.mpr ⟨fun h => (mem_entriesBut.mp h).2 rfl, (nodup_toList t).filter _⟩
  refine (List.perm_ext_iff_of_nodup (nodup_toList _) hnodup).mpr fun kv => ?_
  rw [ExtTreeMap.mem_toList_iff_getElem?_eq_some, get_insert, List.mem_cons, mem_entriesBut]
  obtain ⟨a, w⟩ := kv
  by_cases ha : k = a
  · subst ha
    simp [eq_comm]
  · simp [ha, Ne.symm ha]

theorem sum_insert_eq (t : ExtTreeMap κ α cmp) (k : κ) (v : α) :
    sum f (t.insert k v) = f k v + ((entriesBut t k).map fun kv => f kv.1 kv.2).sum := by
  rw [sum, ((perm_toList_insert t k v).map _).sum_nat, List.map_cons, List.sum_cons]

theorem sum_insert (t : ExtTreeMap κ α cmp) (k : κ) (v : α) :
    sum f (t.insert k v) + t[k]?.elim 0 (f k) = sum f t + f k v := by
  cases hk : t[k]? with
  | some w =>
    have hself : sum f t = f k w + ((entriesBut t k).map fun kv => f kv.1 kv.2).sum := by
      rw [← sum_insert_eq, insert_eq_self.mpr hk]
    rw [sum_insert_eq, hself, Option.elim_some]
    omega
  | none =>
    have hself : entriesBut t k = t.toList := by
      refine List.filter_eq_self.mpr fun kv hkv => ?_
      have := ExtTreeMap.mem_toList_iff_getElem?_eq_some.mp hkv
      by_contra hne
      rw [show kv.1 = k by simpa using hne, hk] at this
      cases this
    rw [sum_insert_eq, hself, Option.elim_none, sum]
    omega

theorem sum_insertIfNew (t : ExtTreeMap κ α cmp) {k : κ} {v : α} (h : f k v = 0) :
    sum f (t.insertIfNew k v) = sum f t := by
  rw [insertIfNew_eq]
  split
  · rename_i hk
    have := sum_insert f t k v
    rw [hk, h] at this
    exact this
  · rfl

theorem le_sum {t : ExtTreeMap κ α cmp} {k : κ} {v : α} (h : t[k]? = some v) : f k v ≤ sum f t := by
  rw [← insert_eq_self.mpr h, sum_insert_eq]
  omega

end Sum

/-! ## Values that carry their keys -/

/-- Every value stands under its own key. -/
def Keyed (key : α → κ) (t : ExtTreeMap κ α cmp) : Prop :=
  ∀ (k : κ) (a : α), t[k]? = some a → key a = k

/-- The map made from a list by inserting one value after another. -/
def insertAll (key : α → κ) (as : List α) : ExtTreeMap κ α cmp :=
  as.foldl (fun t a => t.insert (key a) a) ∅

section Keyed

variable {key : α → κ} {t : ExtTreeMap κ α cmp} {as : List α}

omit [LawfulEqCmp cmp] in
theorem keyed_empty : Keyed key (∅ : ExtTreeMap κ α cmp) := by
  intro k a h
  rw [ExtTreeMap.getElem?_empty] at h
  cases h

theorem Keyed.mem_values (h : Keyed key t) {a : α} : a ∈ t.values ↔ t[key a]? = some a := by
  rw [Table.mem_values]
  constructor
  · rintro ⟨k, hk⟩
    rwa [h k a hk]
  · intro hk
    exact ⟨key a, hk⟩

theorem Keyed.values_pairwise (h : Keyed key t) :
    t.values.Pairwise fun a b => cmp (key a) (key b) = .lt := by
  rw [values_eq, List.pairwise_map]
  refine (ExtTreeMap.ordered_keys_toList (t := t)).imp_of_mem ?_
  rintro ⟨k, a⟩ ⟨k', b⟩ ha hb hlt
  rw [h k a (ExtTreeMap.mem_toList_iff_getElem?_eq_some.mp ha),
    h k' b (ExtTreeMap.mem_toList_iff_getElem?_eq_some.mp hb)]
  exact hlt

theorem Keyed.values_nodup (h : Keyed key t) : (t.values.map key).Nodup := by
  rw [List.Nodup, List.pairwise_map]
  refine h.values_pairwise.imp ?_
  intro a b hlt heq
  have hrefl : cmp (key b) (key b) = .eq := ReflCmp.compare_self
  rw [heq, hrefl] at hlt
  cases hlt

variable [DecidableEq κ]

theorem Keyed.insert (h : Keyed key t) (a : α) : Keyed key (t.insert (key a) a) := by
  intro k b hb
  rcases of_insert hb with ⟨hk, rfl⟩ | hb
  · exact hk
  · exact h k b hb

theorem Keyed.modify (h : Keyed key t) {f : α → α} (hf : ∀ a, key (f a) = key a) (k : κ) :
    Keyed key (t.modify k f) := by
  intro k' b hb
  rcases of_modify hb with ⟨rfl, a, ha, rfl⟩ | hb
  · rw [hf, h k a ha]
  · exact h k' b hb

theorem keyed_insertAll (as : List α) : Keyed key (insertAll key as : ExtTreeMap κ α cmp) := by
  have hloop : ∀ (as : List α) (t : ExtTreeMap κ α cmp), Keyed key t →
      Keyed key (as.foldl (fun t a => t.insert (key a) a) t) := by
    intro as
    induction as with
    | nil => intro t h; exact h
    | cons a as ih => intro t h; exact ih _ (h.insert a)
  exact hloop as ∅ keyed_empty

theorem get_insertAll (hnodup : (as.map key).Nodup) {k : κ} {a : α} :
    (insertAll key as : ExtTreeMap κ α cmp)[k]? = some a ↔ a ∈ as ∧ key a = k := by
  -- a value of the list is not overwritten, since no later one has its key
  have hloop : ∀ (as : List α) (t : ExtTreeMap κ α cmp), (as.map key).Nodup →
      ((as.foldl (fun t a => t.insert (key a) a) t)[k]? = some a ↔
        (a ∈ as ∧ key a = k) ∨ (k ∉ as.map key ∧ t[k]? = some a)) := by
    intro as
    induction as with
    | nil => intro t _; simp
    | cons b as ih =>
      intro t hnodup
      obtain ⟨hb, hnodup⟩ := List.nodup_cons.mp hnodup
      rw [List.foldl_cons, ih _ hnodup, get_insert]
      by_cases hk : key b = k
      · subst hk
        have hmem (a : α) (ha : a ∈ as) : key a ≠ key b := fun e =>
          hb (List.mem_map.mpr ⟨a, ha, e⟩)
        grind
      · grind
  rw [insertAll, hloop as ∅ hnodup]
  simp

theorem perm_values_insertAll (hnodup : (as.map key).Nodup) :
    (insertAll key as : ExtTreeMap κ α cmp).values.Perm as := by
  have hkeyed : Keyed key (insertAll key as : ExtTreeMap κ α cmp) := keyed_insertAll as
  refine (List.perm_ext_iff_of_nodup hkeyed.values_nodup.of_map hnodup.of_map).mpr fun a => ?_
  rw [hkeyed.mem_values, get_insertAll hnodup]
  exact and_iff_left rfl

theorem insertAll_values (h : Keyed key t) : insertAll key t.values = t := by
  refine ExtTreeMap.ext_getElem? fun k => Option.ext fun a => ?_
  rw [get_insertAll h.values_nodup, Table.mem_values]
  constructor
  · rintro ⟨⟨k', hk'⟩, rfl⟩
    rwa [h k' a hk']
  · intro ha
    exact ⟨⟨k, ha⟩, h k a ha⟩

end Keyed

end Table
