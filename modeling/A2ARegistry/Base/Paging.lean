import Mathlib.Data.List.Perm.Basic
import A2ARegistry.Base.Run

namespace A2ARegistry.Base

/-- The rows of one page. -/
def slice {α : Type} (size offset : Nat) (rows : List α) : List α := (rows.drop offset).take size

/-- The first pages of a size, one behind the other, are a prefix of the rows. -/
theorem slices_concat {α : Type} (size : Nat) (rows : List α) (count : Nat) :
    (List.range count).flatMap (fun i => slice size (i * size) rows) = rows.take (count * size) := by
  induction count with
  | zero => simp
  | succ count ih =>
    rw [List.range_succ, List.flatMap_append, ih, List.flatMap_singleton, slice, Nat.succ_mul, List.take_add]

/-- Pages enough to hold the rows are the rows. -/
theorem slices_all {α : Type} {size count : Nat} {rows : List α} (h : rows.length ≤ count * size) :
    (List.range count).flatMap (fun i => slice size (i * size) rows) = rows := by
  rw [slices_concat, List.take_of_length_le h]

/-- A page is not full where the rows end on it. -/
theorem slice_short {α : Type} {size offset : Nat} {rows : List α} (h : (slice size offset rows).length < size) :
    rows.length < offset + size := by
  rw [slice, List.length_take, List.length_drop] at h
  omega

section
variable {α : Type} [DecidableEq α] {le : α → α → Bool}

/-- How many other rows come before a row. -/
def rank (le : α → α → Bool) (rows : List α) (x : α) : Nat := rows.countP (fun y => le y x && y != x)

theorem rank_perm {rows rows' : List α} (h : rows.Perm rows') (x : α) : rank le rows x = rank le rows' x :=
  h.countP_eq _

/-- The row behind a sorted prefix has the prefix before it. -/
theorem rank_sorted {pre post : List α} {x : α}
    (hanti : ∀ y ∈ pre ++ x :: post, le y x = true → le x y = true → y = x)
    (hsorted : (pre ++ x :: post).Pairwise (fun a b => le a b = true)) (hnodup : (pre ++ x :: post).Nodup) :
    rank le (pre ++ x :: post) x = pre.length := by
  rw [List.pairwise_append, List.pairwise_cons] at hsorted
  obtain ⟨_, ⟨hpost, _⟩, hpre⟩ := hsorted
  rw [List.nodup_append, List.nodup_cons] at hnodup
  obtain ⟨_, ⟨hnotin, _⟩, hdisjoint⟩ := hnodup
  have hfirst : pre.countP (fun y => le y x && y != x) = pre.length := by
    rw [List.countP_eq_length]
    intro y hy
    have hne : y ≠ x := hdisjoint y hy x List.mem_cons_self
    simp [hpre y hy x List.mem_cons_self, hne]
  have hlast : post.countP (fun y => le y x && y != x) = 0 := by
    rw [List.countP_eq_zero]
    intro y hy hbefore
    simp only [Bool.and_eq_true, bne_iff_ne, ne_eq] at hbefore
    exact hbefore.2 (hanti y (by simp [hy]) hbefore.1 (hpost y hy))
  rw [rank, List.countP_append, List.countP_cons, hfirst, hlast]
  simp

/-- A row is among the first `n` of a sorted list exactly when fewer than `n` others come before it. -/
theorem mem_take_sorted (htrans : ∀ a b c, le a b = true → le b c = true → le a c = true)
    (htotal : ∀ a b, (le a b || le b a) = true) {rows : List α}
    (hanti : ∀ a ∈ rows, ∀ b ∈ rows, le a b = true → le b a = true → a = b) (hnodup : rows.Nodup)
    (n : Nat) (x : α) :
    x ∈ (rows.mergeSort le).take n ↔ x ∈ rows ∧ rank le rows x < n := by
  have hperm := List.mergeSort_perm rows le
  have hsorted := List.pairwise_mergeSort htrans htotal rows
  have hnodup' : (rows.mergeSort le).Nodup := hperm.nodup_iff.mpr hnodup
  have hanti' : ∀ a ∈ rows.mergeSort le, ∀ b ∈ rows.mergeSort le, le a b = true → le b a = true → a = b :=
    fun a ha b hb => hanti a (hperm.mem_iff.mp ha) b (hperm.mem_iff.mp hb)
  generalize rows.mergeSort le = sorted at hperm hsorted hnodup' hanti'
  rw [← hperm.mem_iff, ← rank_perm hperm]
  constructor
  · intro hx
    have hmem := List.mem_of_mem_take hx
    refine ⟨hmem, ?_⟩
    obtain ⟨pre, post, rfl⟩ := List.append_of_mem hmem
    rw [rank_sorted (fun y hy => hanti' y hy x hmem) hsorted hnodup']
    by_contra hlong
    rw [List.take_append_of_le_length (by omega)] at hx
    rw [List.nodup_append] at hnodup'
    exact hnodup'.2.2 x (List.mem_of_mem_take hx) x List.mem_cons_self rfl
  · rintro ⟨hmem, hrank⟩
    obtain ⟨pre, post, rfl⟩ := List.append_of_mem hmem
    rw [rank_sorted (fun y hy => hanti' y hy x hmem) hsorted hnodup'] at hrank
    rw [List.take_append, List.mem_append]
    right
    obtain ⟨m, hm⟩ : ∃ m, n - pre.length = m + 1 := ⟨n - pre.length - 1, by omega⟩
    rw [hm, List.take_succ_cons]
    exact List.mem_cons_self

theorem rank_lt_length {rows : List α} {x : α} (hx : x ∈ rows) : rank le rows x < rows.length := by
  refine Nat.lt_of_le_of_ne List.countP_le_length fun he => ?_
  have hself := List.countP_eq_length.mp he x hx
  simp at hself

/-- A row is on a page of sorted rows where so many others come before it as the page takes it to be. -/
theorem mem_slice_sorted (htrans : ∀ a b c, le a b = true → le b c = true → le a c = true)
    (htotal : ∀ a b, (le a b || le b a) = true) {rows : List α}
    (hanti : ∀ a ∈ rows, ∀ b ∈ rows, le a b = true → le b a = true → a = b) (hnodup : rows.Nodup)
    (size offset : Nat) (x : α) :
    x ∈ slice size offset (rows.mergeSort le) ↔
      x ∈ rows ∧ offset ≤ rank le rows x ∧ rank le rows x < offset + size := by
  have hfirst := mem_take_sorted htrans htotal hanti hnodup offset x
  have hboth := mem_take_sorted htrans htotal hanti hnodup (offset + size) x
  have hsorted : (rows.mergeSort le).Nodup := (List.mergeSort_perm rows le).nodup_iff.mpr hnodup
  rw [← List.take_append_drop offset (rows.mergeSort le), List.nodup_append] at hsorted
  rw [List.take_add, List.mem_append, hfirst] at hboth
  constructor
  · intro hx
    obtain ⟨hmem, hlt⟩ := hboth.mp (Or.inr hx)
    refine ⟨hmem, ?_, hlt⟩
    by_contra hbefore
    exact hsorted.2.2 x (hfirst.mpr ⟨hmem, by omega⟩) x (List.mem_of_mem_take hx) rfl
  · rintro ⟨hmem, hfrom, hlt⟩
    rcases hboth.mpr ⟨hmem, hlt⟩ with ⟨_, hbefore⟩ | hx
    · omega
    · exact hx

end

section Reader

variable {α σ γ : Type} [DecidableEq α] (step : σ → γ → σ) (rows : σ → List α) (le : α → α → Bool) (size : Nat)

/-- The pages from a number on, one read in each state of a run. -/
def readPages : Nat → σ → List γ → List (List α)
  | k, s, [] => [slice size (k * size) ((rows s).mergeSort le)]
  | k, s, gap :: gaps => slice size (k * size) ((rows s).mergeSort le) :: readPages (k + 1) (step s gap) gaps

variable {step rows le size}

/-- A row that is there throughout, and never has fewer others before it than it had, is on one of the pages that are
read until one is not full. -/
theorem mem_readPages (htrans : ∀ a b c, le a b = true → le b c = true → le a c = true)
    (htotal : ∀ a b, (le a b || le b a) = true)
    (hanti : ∀ s, ∀ a ∈ rows s, ∀ b ∈ rows s, le a b = true → le b a = true → a = b) (hnodup : ∀ s, (rows s).Nodup)
    {x : α} {k : Nat} {s : σ} {gaps : List γ} (hthere : Always step (fun s => x ∈ rows s) s gaps)
    (hrank : EachStep step (fun s gap => rank le (rows s) x ≤ rank le (rows (step s gap)) x) s gaps)
    (hshort : (rows (exec step s gaps)).length < (k + gaps.length + 1) * size) (hfrom : k * size ≤ rank le (rows s) x) :
    ∃ page ∈ readPages step rows le size k s gaps, x ∈ page := by
  induction gaps generalizing k s with
  | nil =>
    refine ⟨_, List.mem_cons_self, (mem_slice_sorted htrans htotal (hanti s) (hnodup s) _ _ _).mpr ⟨hthere, hfrom, ?_⟩⟩
    have hlt : rank le (rows s) x < (rows s).length := rank_lt_length hthere
    rw [List.length_nil, Nat.add_zero, Nat.succ_mul] at hshort
    exact Nat.lt_trans hlt hshort
  | cons gap gaps ih =>
    by_cases hpage : rank le (rows s) x < k * size + size
    · exact ⟨_, List.mem_cons_self,
        (mem_slice_sorted htrans htotal (hanti s) (hnodup s) _ _ _).mpr ⟨hthere.1, hfrom, hpage⟩⟩
    · have hlater : (k + 1) * size ≤ rank le (rows (step s gap)) x := by
        rw [Nat.succ_mul]
        exact Nat.le_trans (Nat.le_of_not_lt hpage) hrank.1
      have hend : (rows (exec step (step s gap) gaps)).length < (k + 1 + gaps.length + 1) * size := by
        have hcount : k + (gap :: gaps).length + 1 = k + 1 + gaps.length + 1 := by
          rw [List.length_cons]
          omega
        rw [← hcount]
        exact hshort
      obtain ⟨page, hmem, hx⟩ := ih hthere.2 hrank.2 hend hlater
      exact ⟨page, List.mem_cons_of_mem _ hmem, hx⟩

end Reader

section
variable {κ α : Type} [DecidableEq κ]

/-- `groups.setdefault(key, []).append(x)`, on a dictionary that keeps the order of its keys. -/
def appendTo (key : κ) (x : α) : List (κ × List α) → List (κ × List α)
  | [] => [(key, [x])]
  | (k, xs) :: groups => if k = key then (k, xs ++ [x]) :: groups else (k, xs) :: appendTo key x groups

/-- The rows by their key, the groups in the order in which their first rows come. -/
def groupRows (key : α → κ) (rows : List α) : List (κ × List α) :=
  rows.foldl (fun groups x => appendTo (key x) x groups) []

theorem appendTo_perm (key : κ) (x : α) (groups : List (κ × List α)) :
    ((appendTo key x groups).flatMap Prod.snd).Perm (groups.flatMap Prod.snd ++ [x]) := by
  induction groups with
  | nil => exact List.Perm.refl _
  | cons group groups ih =>
    obtain ⟨k, xs⟩ := group
    rw [appendTo]
    split
    · rw [List.flatMap_cons, List.flatMap_cons, List.append_assoc, List.append_assoc]
      exact List.Perm.append_left xs List.perm_append_comm
    · rw [List.flatMap_cons, List.flatMap_cons, List.append_assoc]
      exact List.Perm.append_left xs ih

/-- Grouping loses no row and makes none. -/
theorem groupRows_perm (key : α → κ) (rows : List α) : ((groupRows key rows).flatMap Prod.snd).Perm rows := by
  have hall : ∀ groups : List (κ × List α),
      ((rows.foldl (fun groups x => appendTo (key x) x groups) groups).flatMap Prod.snd).Perm
        (groups.flatMap Prod.snd ++ rows) := by
    induction rows with
    | nil =>
      intro groups
      rw [List.append_nil]
      exact List.Perm.refl _
    | cons x rows ih =>
      intro groups
      have hstep := (appendTo_perm (key x) x groups).append_right rows
      rw [List.append_assoc] at hstep
      exact (ih (appendTo (key x) x groups)).trans hstep
  exact hall []

end

end A2ARegistry.Base
