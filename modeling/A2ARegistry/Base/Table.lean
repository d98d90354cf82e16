import Mathlib.Data.List.Nodup

namespace A2ARegistry.Base

/-- Rows that carry their own primary key. -/
class Keyed (κ : outParam Type) (ρ : Type) where
  key : ρ → κ

export Keyed (key)

/-- A table with a primary key. The uniqueness constraint is a field, so no
operation can produce a table that violates it. -/
structure Table (ρ : Type) {κ : Type} [Keyed κ ρ] where
  rows : List ρ
  nodup : (rows.map key).Nodup

namespace Table

variable {κ ρ : Type} [Keyed κ ρ]

def empty : Table ρ := ⟨[], List.nodup_nil⟩

/-- The rows a `WHERE` clause selects, in table order. -/
def select (t : Table ρ) (p : ρ → Bool) : List ρ := t.rows.filter p

/-- `UPDATE ... SET f WHERE p`, for an `f` that leaves the key alone. -/
def modify (t : Table ρ) (p : ρ → Bool) (f : ρ → ρ)
    (hf : ∀ r, key (f r) = key r := by intro _; rfl) : Table ρ where
  rows := t.rows.map (fun r => if p r then f r else r)
  nodup := by
    have he : (key ∘ fun r => if p r then f r else r) = (key : ρ → κ) := by
      funext r
      by_cases hp : p r <;> simp [hp, hf]
    rw [List.map_map, he]
    exact t.nodup

/-- `DELETE ... WHERE p`. -/
def delete (t : Table ρ) (p : ρ → Bool) : Table ρ where
  rows := t.rows.filter (fun r => !p r)
  nodup := List.Nodup.sublist (List.Sublist.map key List.filter_sublist) t.nodup

/-- The rows that satisfy `p`, as a table. -/
def keep (t : Table ρ) (p : ρ → Bool) : Table ρ where
  rows := t.rows.filter p
  nodup := List.Nodup.sublist (List.Sublist.map key List.filter_sublist) t.nodup

theorem ext_rows {t t' : Table ρ} (h : t.rows = t'.rows) : t = t' := by
  cases t
  cases t'
  cases h
  rfl

/-- An update that leaves `p` as it is comes to the same before rows are dropped and after. -/
theorem keep_modify (t : Table ρ) {p q : ρ → Bool} {f : ρ → ρ} (hf : ∀ r, key (f r) = key r)
    (hp : ∀ r, p (f r) = p r) : (t.modify q f hf).keep p = (t.keep p).modify q f hf := by
  apply ext_rows
  have he : (p ∘ fun r => if q r then f r else r) = p := by
    funext r
    by_cases hq : q r
    · simp [hq, hp]
    · simp [hq]
  simp [keep, modify, List.filter_map, he]

theorem mem_select {t : Table ρ} {p : ρ → Bool} {r : ρ} :
    r ∈ t.select p ↔ r ∈ t.rows ∧ p r = true :=
  List.mem_filter

theorem select_nodup (t : Table ρ) (p : ρ → Bool) : ((t.select p).map key).Nodup :=
  List.Nodup.sublist (List.Sublist.map key List.filter_sublist) t.nodup

theorem mem_modify {t : Table ρ} {p : ρ → Bool} {f : ρ → ρ} {hf : ∀ r, key (f r) = key r} {x : ρ} :
    x ∈ (t.modify p f hf).rows ↔ ∃ r ∈ t.rows, (if p r then f r else r) = x := by
  simp [modify]

/-- A selection sees no difference where every row it selects is kept. -/
theorem select_keep (t : Table ρ) {p q : ρ → Bool} (h : ∀ r ∈ t.rows, q r = true → p r = true) :
    (t.keep p).select q = t.select q := by
  simp only [select, keep, List.filter_filter]
  apply List.filter_congr
  intro r hr
  cases hq : q r with
  | true => simp [h r hr hq]
  | false => simp

variable [DecidableEq κ]

def find? (t : Table ρ) (k : κ) : Option ρ := t.rows.find? (fun r => key r == k)

/-- Unique keys make a lookup the same thing as membership. -/
theorem find_some_iff {t : Table ρ} {k : κ} {r : ρ} :
    t.find? k = some r ↔ r ∈ t.rows ∧ key r = k := by
  constructor
  · intro h
    exact ⟨List.mem_of_find?_eq_some h, by simpa using List.find?_some h⟩
  · rintro ⟨hr, rfl⟩
    have hs : (t.find? (key r)).isSome := List.find?_isSome.mpr ⟨r, hr, by simp⟩
    obtain ⟨x, hx⟩ := Option.isSome_iff_exists.mp hs
    have hk : key x = key r := by simpa using List.find?_some hx
    rw [hx, List.inj_on_of_nodup_map t.nodup (List.mem_of_find?_eq_some hx) hr hk]

theorem find_none_iff {t : Table ρ} {k : κ} : t.find? k = none ↔ ∀ r ∈ t.rows, key r ≠ k := by
  simp [find?, List.find?_eq_none]

theorem find_key {t : Table ρ} {k : κ} {r : ρ} (h : t.find? k = some r) : key r = k :=
  (find_some_iff.mp h).2

theorem find_mem {t : Table ρ} {r : ρ} (h : r ∈ t.rows) : t.find? (key r) = some r :=
  find_some_iff.mpr ⟨h, rfl⟩

@[simp] theorem find_modify (t : Table ρ) (p : ρ → Bool) (f : ρ → ρ) (hf : ∀ r, key (f r) = key r)
    (k : κ) : (t.modify p f hf).find? k = (t.find? k).map (fun r => if p r then f r else r) := by
  simp only [find?, modify, List.find?_map]
  congr 2
  funext r
  by_cases hp : p r <;> simp [hp, hf]

theorem find_delete (t : Table ρ) (p : ρ → Bool) (k : κ) :
    (t.delete p).find? k = (t.find? k).filter (fun r => !p r) := by
  cases hf : t.find? k with
  | none =>
    rw [find_none_iff] at hf
    exact find_none_iff.mpr (fun r hr => hf r (List.mem_filter.mp hr).1)
  | some r =>
    obtain ⟨hr, hk⟩ := find_some_iff.mp hf
    cases hp : p r with
    | false =>
      have hm : r ∈ (t.delete p).rows := List.mem_filter.mpr ⟨hr, by simp [hp]⟩
      rw [find_some_iff.mpr ⟨hm, hk⟩]
      simp [Option.filter, hp]
    | true =>
      have hn : (t.delete p).find? k = none := by
        apply find_none_iff.mpr
        intro x hx he
        obtain ⟨hx, hpx⟩ := List.mem_filter.mp hx
        have hxr := List.inj_on_of_nodup_map t.nodup hx hr (he.trans hk.symm)
        simp [hxr, hp] at hpx
      simp [hn, Option.filter, hp]

theorem find_select (t : Table ρ) (p : ρ → Bool) (k : κ) :
    (t.select p).find? (fun r => key r == k) = (t.find? k).filter p := by
  have he : t.select p = (t.delete (fun r => !p r)).rows := by simp [select, delete]
  have hd := find_delete t (fun r => !p r) k
  simp only [Bool.not_not] at hd
  rw [he, ← hd]
  rfl

@[simp] theorem find_keep (t : Table ρ) (p : ρ → Bool) (k : κ) :
    (t.keep p).find? k = (t.find? k).filter p := by
  have he : t.keep p = t.delete (fun r => !p r) := ext_rows (by simp [keep, delete])
  simp [he, find_delete]

omit [DecidableEq κ] in
/-- A row with a new key may be appended. -/
theorem nodup_snoc {rows : List ρ} {r : ρ} (hrows : (rows.map key).Nodup) (hnew : ∀ x ∈ rows, key x ≠ key r) :
    ((rows ++ [r]).map key).Nodup := by
  rw [List.map_append, List.nodup_append]
  refine ⟨hrows, by simp, ?_⟩
  intro a ha b hb
  obtain ⟨x, hx, rfl⟩ := List.mem_map.mp ha
  have hkey : b = key r := by simpa using hb
  exact hkey ▸ hnew x hx

/-- `INSERT`: refused when the key is taken. -/
def insert? (t : Table ρ) (r : ρ) : Option (Table ρ) :=
  match h : t.find? (key r) with
  | some _ => none
  | none => some {
      rows := t.rows ++ [r]
      nodup := nodup_snoc t.nodup (find_none_iff.mp h) }

theorem insert_some {t t' : Table ρ} {r : ρ} (h : t.insert? r = some t') :
    t.find? (key r) = none ∧ t'.rows = t.rows ++ [r] := by
  unfold insert? at h
  split at h
  · cases h
  · rename_i hf
    cases h
    exact ⟨hf, rfl⟩

theorem insert_isSome {t : Table ρ} {r : ρ} : (t.insert? r).isSome ↔ t.find? (key r) = none := by
  unfold insert?
  split
  · rename_i hf
    simp [hf]
  · rename_i hf
    simp [hf]

theorem find_insert {t t' : Table ρ} {r : ρ} (h : t.insert? r = some t') (k : κ) :
    t'.find? k = if k = key r then some r else t.find? k := by
  obtain ⟨hn, hr⟩ := insert_some h
  rw [find?, hr, List.find?_append]
  split
  · rename_i hk
    subst hk
    change (t.find? (key r)).or _ = _
    simp [hn]
  · rename_i hk
    change (t.find? k).or _ = _
    have hk' : ¬ key r = k := fun he => hk he.symm
    cases t.find? k <;> simp [hk']

/-- `table[key] = row`: the row takes the place of the one under its key, or is added. -/
def put (t : Table ρ) (r : ρ) : Table ρ :=
  if h : (t.find? (key r)).isSome then {
    rows := t.rows.map (fun x => if key x = key r then r else x)
    nodup := by
      have he : (key ∘ fun x => if key x = key r then r else x) = (key : ρ → κ) := by
        funext x
        by_cases hx : key x = key r <;> simp [hx]
      rw [List.map_map, he]
      exact t.nodup }
  else {
    rows := t.rows ++ [r]
    nodup := nodup_snoc t.nodup (find_none_iff.mp (by simpa using h)) }

@[simp] theorem find_put (t : Table ρ) (r : ρ) (k : κ) :
    (t.put r).find? k = if k = key r then some r else t.find? k := by
  unfold put
  split
  · rename_i h
    simp only [find?, List.find?_map]
    by_cases hk : k = key r
    · subst hk
      obtain ⟨x, hx⟩ := Option.isSome_iff_exists.mp h
      have hp : ((fun y => key y == key r) ∘ fun y => if key y = key r then r else y) =
          fun y : ρ => key y == key r := by
        funext y
        by_cases hy : key y = key r <;> simp [hy]
      have hx' : t.rows.find? (fun y => key y == key r) = some x := hx
      rw [hp, hx']
      simp [find_key hx]
    · have hp : ((fun y => key y == k) ∘ fun y => if key y = key r then r else y) =
          fun y : ρ => key y == k := by
        funext y
        by_cases hy : key y = key r
        · simp [hy]
        · simp [hy]
      rw [hp, if_neg hk]
      cases hf : t.rows.find? (fun y => key y == k) with
      | none => rfl
      | some y =>
        have hy : key y = k := by simpa using List.find?_some hf
        simp [hy, hk]
  · rename_i h
    have hn : t.find? (key r) = none := by simpa using h
    simp only [find?, List.find?_append]
    by_cases hk : k = key r
    · subst hk
      have hn' : t.rows.find? (fun y => key y == key r) = none := hn
      simp [hn']
    · have hk' : ¬ key r = k := fun he => hk he.symm
      cases t.rows.find? (fun y => key y == k) <;> simp [hk, hk']

/-- A loop over rows with distinct keys whose body changes only what is stored under
the key of its row changes each entry once. -/
theorem foldl_update {σ α : Type} (look : σ → κ → α) {body : σ → ρ → σ} (f : ρ → α → α)
    (hb : ∀ s r k, look (body s r) k = if k = key r then f r (look s k) else look s k)
    {rs : List ρ} (hn : (rs.map key).Nodup) (s : σ) (k : κ) :
    look (rs.foldl body s) k =
      ((rs.find? (fun r => key r == k)).map (fun r => f r (look s k))).getD (look s k) := by
  induction rs generalizing s with
  | nil => rfl
  | cons r rs ih =>
    obtain ⟨hr, hn⟩ := List.nodup_cons.mp hn
    rw [List.foldl_cons, ih hn, hb, List.find?_cons]
    by_cases hk : k = key r
    · have hnone : rs.find? (fun x => key x == k) = none := by
        apply List.find?_eq_none.mpr
        intro x hx he
        have he : key x = k := by simpa using he
        exact hr (List.mem_map.mpr ⟨x, hx, he.trans hk⟩)
      rw [hnone]
      simp [hk]
    · have hne : (key r == k) = false := beq_false_of_ne (Ne.symm hk)
      simp only [hk, if_false, hne]

end Table

/-- A table whose integer key the database assigns and never reuses. -/
structure AutoTable (ρ : Type) [Keyed Nat ρ] extends Table ρ where
  next : Nat
  bound : ∀ r ∈ rows, key r < next

namespace AutoTable

variable {ρ : Type} [Keyed Nat ρ]

def empty : AutoTable ρ := ⟨Table.empty, 1, by simp [Table.empty]⟩

theorem find_next (t : AutoTable ρ) : t.find? t.next = none := by
  apply Table.find_none_iff.mpr
  intro r hr he
  exact Nat.lt_irrefl _ (he ▸ t.bound r hr)

theorem find_lt {t : AutoTable ρ} {n : Nat} {r : ρ} (h : t.find? n = some r) : n < t.next := by
  obtain ⟨hr, rfl⟩ := Table.find_some_iff.mp h
  exact t.bound r hr

/-- `INSERT` of the row `f` builds from the assigned key `next`. -/
def insert (t : AutoTable ρ) (f : Nat → ρ) (hf : ∀ n, key (f n) = n := by intro _; rfl) :
    AutoTable ρ where
  rows := t.rows ++ [f t.next]
  nodup := by
    apply Table.nodup_snoc t.nodup
    intro x hx
    rw [hf]
    exact Nat.ne_of_lt (t.bound x hx)
  next := t.next + 1
  bound := by
    intro r hr
    rcases List.mem_append.mp hr with hr | hr
    · exact Nat.lt_succ_of_lt (t.bound r hr)
    · rw [List.mem_singleton.mp hr, hf]
      exact Nat.lt_succ_self _

def modify (t : AutoTable ρ) (p : ρ → Bool) (f : ρ → ρ)
    (hf : ∀ r, key (f r) = key r := by intro _; rfl) : AutoTable ρ where
  toTable := t.toTable.modify p f hf
  next := t.next
  bound := by
    intro x hx
    obtain ⟨r, hr, rfl⟩ := Table.mem_modify.mp hx
    have := t.bound r hr
    split <;> simp_all

/-- The rows that satisfy `p`. The key that is assigned next stays. -/
def keep (t : AutoTable ρ) (p : ρ → Bool) : AutoTable ρ where
  toTable := t.toTable.keep p
  next := t.next
  bound := fun r hr => t.bound r (List.mem_filter.mp hr).1

theorem ext_rows {t t' : AutoTable ρ} (h : t.rows = t'.rows) (hn : t.next = t'.next) : t = t' := by
  obtain ⟨⟨rows, _⟩, next, _⟩ := t
  obtain ⟨⟨rows', _⟩, next', _⟩ := t'
  cases h
  cases hn
  rfl

theorem keep_modify (t : AutoTable ρ) {p q : ρ → Bool} {f : ρ → ρ} (hf : ∀ r, key (f r) = key r)
    (hp : ∀ r, p (f r) = p r) : (t.modify q f hf).keep p = (t.keep p).modify q f hf :=
  ext_rows (congrArg Table.rows (Table.keep_modify t.toTable hf hp)) rfl

theorem keep_insert (t : AutoTable ρ) {p : ρ → Bool} {f : Nat → ρ} (hf : ∀ n, key (f n) = n)
    (hp : p (f t.next) = true) : (t.insert f hf).keep p = (t.keep p).insert f hf :=
  ext_rows (by simp [keep, Table.keep, insert, hp]) rfl

@[simp] theorem find_insert (t : AutoTable ρ) (f : Nat → ρ) (hf : ∀ n, key (f n) = n) (n : Nat) :
    (t.insert f hf).find? n = if n = t.next then some (f t.next) else t.find? n := by
  have hi : t.toTable.insert? (f t.next) = some (t.insert f hf).toTable := by
    have hn : t.find? (key (f t.next)) = none := by rw [hf]; exact t.find_next
    unfold Table.insert?
    split
    · simp_all
    · rfl
  rw [Table.find_insert hi, hf]

@[simp] theorem find_modify (t : AutoTable ρ) (p : ρ → Bool) (f : ρ → ρ)
    (hf : ∀ r, key (f r) = key r) (n : Nat) :
    (t.modify p f hf).find? n = (t.find? n).map (fun r => if p r then f r else r) :=
  Table.find_modify t.toTable p f hf n

end AutoTable

end A2ARegistry.Base
