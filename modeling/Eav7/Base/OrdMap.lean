import Eav7.Base.Textos
import Mathlib.Order.Basic
import Mathlib.Data.List.Pairwise
import Mathlib.Data.List.Perm.Basic
import Mathlib.Algebra.BigOperators.Group.List.Basic
import Mathlib.Algebra.GroupWithZero.Nat
import Mathlib.Algebra.Order.BigOperators.Group.List

/-!
# Key-ordered finite maps with weighted totals

A map is its list of entries in strictly increasing key order, so equal lookups
give equal maps and iteration follows the keys. `total` adds up a weight over
all entries; the update lemmas say how one insertion or deletion moves it.
-/

namespace Base

/-- A finite map stored as its entries in strictly increasing key order. -/
@[ext] structure OrdMap (κ ν : Type*) [LinearOrder κ] where
  entries : List (κ × ν)
  sorted : entries.Pairwise fun a b => a.1 < b.1

namespace OrdMap

variable {κ ν μ : Type*} [LinearOrder κ]

instance [DecidableEq ν] : DecidableEq (OrdMap κ ν) := fun m m' =>
  decidable_of_iff (m.entries = m'.entries) OrdMap.ext_iff.symm

def find (k : κ) : List (κ × ν) → Option ν
  | [] => none
  | e :: es => if k = e.1 then some e.2 else find k es

def insertEntry (k : κ) (v : ν) : List (κ × ν) → List (κ × ν)
  | [] => [(k, v)]
  | e :: es =>
    if k < e.1 then (k, v) :: e :: es
    else if k = e.1 then (k, v) :: es
    else e :: insertEntry k v es

def eraseEntry (k : κ) : List (κ × ν) → List (κ × ν)
  | [] => []
  | e :: es => if k = e.1 then es else e :: eraseEntry k es

theorem fst_mem_insertEntry {k : κ} {v : ν} {es : List (κ × ν)} {e : κ × ν}
    (h : e ∈ insertEntry k v es) : e.1 = k ∨ e ∈ es := by
  induction es with
  | nil => simp_all [insertEntry]
  | cons d ds ih =>
    unfold insertEntry at h
    split_ifs at h <;> grind

theorem mem_of_mem_eraseEntry {k : κ} {es : List (κ × ν)} {e : κ × ν}
    (h : e ∈ eraseEntry k es) : e ∈ es := by
  induction es with
  | nil => simp [eraseEntry] at h
  | cons d ds ih =>
    unfold eraseEntry at h
    split_ifs at h <;> grind

theorem insertEntry_sorted (k : κ) (v : ν) {es : List (κ × ν)}
    (h : es.Pairwise fun a b => a.1 < b.1) :
    (insertEntry k v es).Pairwise fun a b => a.1 < b.1 := by
  induction es with
  | nil => simp [insertEntry]
  | cons d ds ih =>
    obtain ⟨hd, hds⟩ := List.pairwise_cons.mp h
    unfold insertEntry
    split_ifs with hlt heq
    · refine List.pairwise_cons.mpr ⟨?_, h⟩
      intro e he
      rcases List.mem_cons.mp he with rfl | he
      · exact hlt
      · exact hlt.trans (hd e he)
    · exact List.pairwise_cons.mpr ⟨fun e he => heq ▸ hd e he, hds⟩
    · refine List.pairwise_cons.mpr ⟨?_, ih hds⟩
      intro e he
      rcases fst_mem_insertEntry he with hk | he
      · exact hk ▸ lt_of_le_of_ne (not_lt.mp hlt) (Ne.symm heq)
      · exact hd e he

theorem eraseEntry_sorted (k : κ) {es : List (κ × ν)}
    (h : es.Pairwise fun a b => a.1 < b.1) :
    (eraseEntry k es).Pairwise fun a b => a.1 < b.1 := by
  induction es with
  | nil => simp [eraseEntry]
  | cons d ds ih =>
    obtain ⟨hd, hds⟩ := List.pairwise_cons.mp h
    unfold eraseEntry
    split_ifs
    · exact hds
    · exact List.pairwise_cons.mpr ⟨fun e he => hd e (mem_of_mem_eraseEntry he), ih hds⟩

def empty : OrdMap κ ν := ⟨[], List.Pairwise.nil⟩

instance : EmptyCollection (OrdMap κ ν) := ⟨empty⟩
instance : Inhabited (OrdMap κ ν) := ⟨empty⟩

def get? (m : OrdMap κ ν) (k : κ) : Option ν := find k m.entries

def getD (m : OrdMap κ ν) (k : κ) (d : ν) : ν := (m.get? k).getD d

def contains (m : OrdMap κ ν) (k : κ) : Bool := (m.get? k).isSome

def insert (m : OrdMap κ ν) (k : κ) (v : ν) : OrdMap κ ν :=
  ⟨insertEntry k v m.entries, insertEntry_sorted k v m.sorted⟩

def erase (m : OrdMap κ ν) (k : κ) : OrdMap κ ν :=
  ⟨eraseEntry k m.entries, eraseEntry_sorted k m.sorted⟩

def keys (m : OrdMap κ ν) : List κ := m.entries.map Prod.fst

def values (m : OrdMap κ ν) : List ν := m.entries.map Prod.snd

def size (m : OrdMap κ ν) : ℕ := m.entries.length

def filter (p : κ → ν → Bool) (m : OrdMap κ ν) : OrdMap κ ν :=
  ⟨m.entries.filter fun e => p e.1 e.2, m.sorted.filter _⟩

def ofList (es : List (κ × ν)) : OrdMap κ ν := es.foldl (fun m e => m.insert e.1 e.2) empty

/-! ## Lookups -/

theorem find_eq_none_of_lt {k : κ} {es : List (κ × ν)} (h : ∀ e ∈ es, k < e.1) :
    find k es = none := by
  induction es with
  | nil => rfl
  | cons d ds ih => grind [find]

theorem find_insertEntry (k j : κ) (v : ν) (es : List (κ × ν)) :
    find j (insertEntry k v es) = if j = k then some v else find j es := by
  induction es with
  | nil => simp [insertEntry, find]
  | cons d ds ih =>
    unfold insertEntry
    split_ifs <;> grind [find]

theorem find_eraseEntry (k j : κ) {es : List (κ × ν)} (h : es.Pairwise fun a b => a.1 < b.1) :
    find j (eraseEntry k es) = if j = k then none else find j es := by
  induction es with
  | nil => simp [eraseEntry, find]
  | cons d ds ih =>
    obtain ⟨hd, hds⟩ := List.pairwise_cons.mp h
    have ih := ih hds
    unfold eraseEntry
    split_ifs with hk hj hj
    · subst hj hk
      exact find_eq_none_of_lt hd
    · grind [find]
    · grind [find]
    · grind [find]

theorem find_eq_some_iff {k : κ} {v : ν} {es : List (κ × ν)}
    (h : es.Pairwise fun a b => a.1 < b.1) : find k es = some v ↔ (k, v) ∈ es := by
  induction es with
  | nil => simp [find]
  | cons d ds ih =>
    obtain ⟨hd, hds⟩ := List.pairwise_cons.mp h
    obtain ⟨dk, dv⟩ := d
    by_cases hk : k = dk
    · have hnot : (k, v) ∉ ds := fun hm => lt_irrefl k (lt_of_eq_of_lt hk (hd (k, v) hm))
      simp [find, hk, hk ▸ hnot, eq_comm]
    · simp [find, hk, ih hds]

@[simp] theorem get?_empty (k : κ) : (∅ : OrdMap κ ν).get? k = none := rfl

@[grind =] theorem get?_insert (m : OrdMap κ ν) (k j : κ) (v : ν) :
    (m.insert k v).get? j = if j = k then some v else m.get? j := find_insertEntry k j v m.entries

@[simp] theorem get?_insert_self (m : OrdMap κ ν) (k : κ) (v : ν) :
    (m.insert k v).get? k = some v := by rw [get?_insert, if_pos rfl]

theorem get?_insert_of_ne (m : OrdMap κ ν) {k j : κ} (h : j ≠ k) (v : ν) :
    (m.insert k v).get? j = m.get? j := by rw [get?_insert, if_neg h]

@[grind =] theorem get?_erase (m : OrdMap κ ν) (k j : κ) :
    (m.erase k).get? j = if j = k then none else m.get? j := find_eraseEntry k j m.sorted

@[simp] theorem get?_erase_self (m : OrdMap κ ν) (k : κ) : (m.erase k).get? k = none := by
  rw [get?_erase, if_pos rfl]

theorem get?_erase_of_ne (m : OrdMap κ ν) {k j : κ} (h : j ≠ k) :
    (m.erase k).get? j = m.get? j := by rw [get?_erase, if_neg h]

theorem mem_entries_iff {m : OrdMap κ ν} {k : κ} {v : ν} :
    (k, v) ∈ m.entries ↔ m.get? k = some v := (find_eq_some_iff m.sorted).symm

@[grind =] theorem getD_insert (m : OrdMap κ ν) (k j : κ) (v d : ν) :
    (m.insert k v).getD j d = if j = k then v else m.getD j d := by
  unfold getD
  rw [get?_insert]
  split_ifs <;> rfl

@[grind =] theorem getD_erase (m : OrdMap κ ν) (k j : κ) (d : ν) :
    (m.erase k).getD j d = if j = k then d else m.getD j d := by
  unfold getD
  rw [get?_erase]
  split_ifs <;> rfl

theorem contains_iff {m : OrdMap κ ν} {k : κ} : m.contains k = true ↔ ∃ v, m.get? k = some v :=
  Option.isSome_iff_exists

theorem contains_eq_false {m : OrdMap κ ν} {k : κ} : m.contains k = false ↔ m.get? k = none := by
  simp [contains]

theorem find_filter (p : κ → ν → Bool) (k : κ) {es : List (κ × ν)}
    (h : es.Pairwise fun a b => a.1 < b.1) :
    find k (es.filter fun e => p e.1 e.2) = (find k es).filter (p k) := by
  induction es with
  | nil => rfl
  | cons d ds ih =>
    obtain ⟨hd, hds⟩ := List.pairwise_cons.mp h
    have ih := ih hds
    by_cases hk : k = d.1
    · subst hk
      have hnone : find d.1 ds = none := find_eq_none_of_lt hd
      rw [hnone] at ih
      by_cases hp : p d.1 d.2 = true
      · simp [hp, find, Option.filter]
      · simp [hp, find, Option.filter, ih]
    · by_cases hp : p d.1 d.2 = true
      · simp [hp, find, hk, ih]
      · simp [hp, find, hk, ih]

theorem get?_filter (p : κ → ν → Bool) (m : OrdMap κ ν) (k : κ) :
    (m.filter p).get? k = (m.get? k).filter (p k) := find_filter p k m.sorted

/-- Two maps with the same lookups are the same map. -/
theorem ext_get? {m m' : OrdMap κ ν} (h : ∀ k, m.get? k = m'.get? k) : m = m' := by
  have hmem : ∀ e, e ∈ m.entries ↔ e ∈ m'.entries := by
    rintro ⟨k, v⟩
    rw [mem_entries_iff, mem_entries_iff, h]
  have hnodup : ∀ n : OrdMap κ ν, n.entries.Nodup := fun n =>
    n.sorted.imp fun hlt heq => absurd (heq ▸ hlt) (lt_irrefl _)
  refine OrdMap.ext ?_
  refine ((List.perm_ext_iff_of_nodup (hnodup m) (hnodup m')).mpr hmem).eq_of_pairwise ?_
    m.sorted m'.sorted
  exact fun a b _ _ hab hba => absurd (hab.trans hba) (lt_irrefl _)

theorem insert_eq_self {m : OrdMap κ ν} {k : κ} {v : ν} (h : m.get? k = some v) :
    m.insert k v = m := by
  refine ext_get? fun j => ?_
  rw [get?_insert]
  split_ifs with hj
  · rw [hj, h]
  · rfl

@[simp] theorem insert_insert (m : OrdMap κ ν) (k : κ) (v w : ν) :
    (m.insert k v).insert k w = m.insert k w := by
  refine ext_get? fun j => ?_
  simp only [get?_insert]
  split_ifs <;> rfl

theorem erase_insert {m : OrdMap κ ν} {k : κ} (h : m.get? k = none) (v : ν) :
    (m.insert k v).erase k = m := by
  refine ext_get? fun j => ?_
  rw [get?_erase, get?_insert]
  split_ifs with hj
  · rw [hj, h]
  · rfl

/-! ## Totals -/

/-- The sum of a weight over all entries. -/
def total (f : κ → ν → ℕ) (m : OrdMap κ ν) : ℕ := (m.entries.map fun e => f e.1 e.2).sum

/-- The weight stored under one key, zero when the key is absent. -/
def weight (f : κ → ν → ℕ) (m : OrdMap κ ν) (k : κ) : ℕ := (m.get? k).elim 0 (f k)

@[simp] theorem total_empty (f : κ → ν → ℕ) : (∅ : OrdMap κ ν).total f = 0 := rfl

theorem sum_insertEntry (f : κ → ν → ℕ) (k : κ) (v : ν) {es : List (κ × ν)}
    (h : es.Pairwise fun a b => a.1 < b.1) :
    ((insertEntry k v es).map fun e => f e.1 e.2).sum + (find k es).elim 0 (f k) =
      (es.map fun e => f e.1 e.2).sum + f k v := by
  induction es with
  | nil => simp [insertEntry, find]
  | cons d ds ih =>
    obtain ⟨hd, hds⟩ := List.pairwise_cons.mp h
    have ih := ih hds
    unfold insertEntry
    split_ifs with hlt heq
    · have hnone : find k (d :: ds) = none := find_eq_none_of_lt fun e he => by
        rcases List.mem_cons.mp he with rfl | he
        · exact hlt
        · exact hlt.trans (hd e he)
      simp only [hnone, List.map_cons, List.sum_cons, Option.elim_none]
      omega
    · rw [find, if_pos heq, List.map_cons, List.map_cons, List.sum_cons, List.sum_cons, heq]
      simp only [Option.elim_some]
      omega
    · simp only [find, if_neg heq, List.map_cons, List.sum_cons]
      omega

theorem sum_eraseEntry (f : κ → ν → ℕ) (k : κ) (es : List (κ × ν)) :
    ((eraseEntry k es).map fun e => f e.1 e.2).sum + (find k es).elim 0 (f k) =
      (es.map fun e => f e.1 e.2).sum := by
  induction es with
  | nil => simp [eraseEntry, find]
  | cons d ds ih =>
    unfold eraseEntry
    split_ifs with heq
    · rw [find, if_pos heq, List.map_cons, List.sum_cons, heq]
      exact Nat.add_comm _ _
    · simp only [find, if_neg heq, List.map_cons, List.sum_cons]
      omega

theorem total_insert (f : κ → ν → ℕ) (m : OrdMap κ ν) (k : κ) (v : ν) :
    (m.insert k v).total f + m.weight f k = m.total f + f k v :=
  sum_insertEntry f k v m.sorted

theorem total_erase (f : κ → ν → ℕ) (m : OrdMap κ ν) (k : κ) :
    (m.erase k).total f + m.weight f k = m.total f := sum_eraseEntry f k m.entries

theorem weight_le_total (f : κ → ν → ℕ) (m : OrdMap κ ν) (k : κ) : m.weight f k ≤ m.total f :=
  le_of_le_of_eq (Nat.le_add_left _ _) (total_erase f m k)

theorem weight_of_get?_none (f : κ → ν → ℕ) {m : OrdMap κ ν} {k : κ} (h : m.get? k = none) :
    m.weight f k = 0 := by simp [weight, h]

theorem weight_eq_getD (f : κ → ν → ℕ) (m : OrdMap κ ν) (k : κ) {d : ν} (h : f k d = 0) :
    m.weight f k = f k (m.getD k d) := by
  unfold weight getD
  cases m.get? k <;> simp [h]

theorem total_congr {f g : κ → ν → ℕ} {m : OrdMap κ ν}
    (h : ∀ k v, m.get? k = some v → f k v = g k v) : m.total f = m.total g := by
  unfold total
  refine congrArg List.sum (List.map_congr_left ?_)
  rintro ⟨k, v⟩ he
  exact h k v (mem_entries_iff.mp he)

theorem total_eq_zero {f : κ → ν → ℕ} {m : OrdMap κ ν}
    (h : ∀ k v, m.get? k = some v → f k v = 0) : m.total f = 0 := by
  rw [total_congr (g := fun _ _ => 0) h]
  simp [total]

theorem total_add (f g : κ → ν → ℕ) (m : OrdMap κ ν) :
    m.total (fun k v => f k v + g k v) = m.total f + m.total g := by
  simp [total, List.sum_map_add]

/-- A total as a sum over the keys. -/
theorem sum_keys_eq_total {f : κ → ν → ℕ} {h : κ → ℕ} {m : OrdMap κ ν}
    (hf : ∀ k v, m.get? k = some v → h k = f k v) : (m.keys.map h).sum = m.total f := by
  unfold keys total
  rw [List.map_map]
  refine congrArg List.sum (List.map_congr_left ?_)
  rintro ⟨k, v⟩ he
  exact hf k v (mem_entries_iff.mp he)

theorem nodup_keys (m : OrdMap κ ν) : m.keys.Nodup :=
  List.pairwise_map.mpr (m.sorted.imp fun h => ne_of_lt h)

theorem mem_keys {m : OrdMap κ ν} {k : κ} : k ∈ m.keys ↔ ∃ v, m.get? k = some v := by
  unfold keys
  rw [List.mem_map]
  constructor
  · rintro ⟨⟨k', v⟩, he, rfl⟩
    exact ⟨v, mem_entries_iff.mp he⟩
  · rintro ⟨v, hv⟩
    exact ⟨(k, v), mem_entries_iff.mpr hv, rfl⟩

theorem get?_foldl_insert {es : List (κ × ν)} (h : (es.map Prod.fst).Nodup) (m : OrdMap κ ν)
    {k : κ} {v : ν} : (es.foldl (fun m e => m.insert e.1 e.2) m).get? k = some v ↔
      (k, v) ∈ es ∨ k ∉ es.map Prod.fst ∧ m.get? k = some v := by
  induction es generalizing m with
  | nil => simp
  | cons e es ih =>
    obtain ⟨a, b⟩ := e
    obtain ⟨hfora, hes⟩ := List.nodup_cons.mp h
    rw [List.foldl_cons, ih hes, get?_insert]
    by_cases hk : k = a
    · subst hk
      have hnao : (k, v) ∉ es := fun hm => hfora (List.mem_map.mpr ⟨_, hm, rfl⟩)
      simp [hnao, hfora, eq_comm]
    · simp [hk]

/-- A map given by pairs of distinct keys holds exactly these pairs. -/
theorem get?_ofList {es : List (κ × ν)} (h : (es.map Prod.fst).Nodup) {k : κ} {v : ν} :
    (ofList es).get? k = some v ↔ (k, v) ∈ es := by
  have hvazio : ¬ (empty : OrdMap κ ν).get? k = some v := by
    rintro ⟨⟩
  rw [ofList, get?_foldl_insert h, or_iff_left fun h => hvazio h.2]

theorem ofList_eq_of_perm {es ds : List (κ × ν)} (h : (es.map Prod.fst).Nodup) (hp : es.Perm ds) :
    ofList es = ofList ds := by
  have hds : (ds.map Prod.fst).Nodup := (hp.map Prod.fst).nodup_iff.mp h
  refine ext_get? fun k => Option.ext fun v => ?_
  rw [get?_ofList h, get?_ofList hds, hp.mem_iff]

theorem ofList_entries (m : OrdMap κ ν) : ofList m.entries = m := by
  have hnodup : (m.entries.map Prod.fst).Nodup :=
    List.pairwise_map.mpr (m.sorted.imp fun h => h.ne)
  refine ext_get? fun k => Option.ext fun v => ?_
  rw [get?_ofList hnodup, mem_entries_iff]

theorem lookup_entries [BEq κ] [LawfulBEq κ] (m : OrdMap κ ν) (k : κ) :
    m.entries.lookup k = m.get? k := by
  unfold get?
  induction m.entries with
  | nil => rfl
  | cons e es ih =>
    rw [List.lookup_cons, find, ih]
    by_cases h : k = e.1
    · simp [h]
    · simp [h, beq_false_of_ne h]

end OrdMap
end Base
