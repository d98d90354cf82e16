namespace A2ARegistry.Base

/-- A computation that can raise returns something. -/
def Returns {ε α : Type} (x : Except ε α) : Prop := ∃ a, x = .ok a

namespace Returns

variable {ε α β : Type} {x : Except ε α} {f : α → Except ε β}

@[simp] theorem ok (a : α) : Returns (.ok a : Except ε α) := ⟨a, rfl⟩

@[simp] theorem pure (a : α) : Returns (Pure.pure a : Except ε α) := ⟨a, rfl⟩

@[simp] theorem error (e : ε) : ¬ Returns (.error e : Except ε α) := nofun

theorem bind_ok_iff {b : β} : x >>= f = .ok b ↔ ∃ a, x = .ok a ∧ f a = .ok b := by
  cases x with
  | error e => exact iff_of_false nofun nofun
  | ok a =>
    constructor
    · intro h
      exact ⟨a, rfl, h⟩
    · intro ⟨_, ha, h⟩
      cases ha
      exact h

theorem bind_iff : Returns (x >>= f) ↔ ∃ a, x = .ok a ∧ Returns (f a) := by
  constructor
  · intro ⟨b, h⟩
    obtain ⟨a, ha, hb⟩ := bind_ok_iff.mp h
    exact ⟨a, ha, b, hb⟩
  · intro ⟨a, ha, b, hb⟩
    exact ⟨b, bind_ok_iff.mpr ⟨a, ha, hb⟩⟩

/-- What follows does not depend on what is returned first: both return. -/
theorem bind_and {P Q : Prop} (hx : Returns x ↔ P) (hf : ∀ a, Returns (f a) ↔ Q) : Returns (x >>= f) ↔ P ∧ Q := by
  rw [bind_iff, ← hx]
  constructor
  · intro ⟨a, ha, h⟩
    exact ⟨⟨a, ha⟩, (hf a).mp h⟩
  · intro ⟨⟨a, ha⟩, hq⟩
    exact ⟨a, ha, (hf a).mpr hq⟩

/-- The last step of a computation only puts together what was returned. -/
theorem bind_pure (g : α → β) : Returns (x >>= fun a => Pure.pure (g a)) ↔ Returns x := by
  have h : Returns (x >>= fun a => Pure.pure (g a)) ↔ Returns x ∧ True :=
    bind_and Iff.rfl (fun a => iff_of_true (pure (g a)) trivial)
  rw [h, and_true]

theorem map_iff {g : α → β} : Returns (x.map g) ↔ Returns x := by
  cases x with
  | error e => exact iff_of_false (error e) (error e)
  | ok a => exact iff_of_true (ok (g a)) (ok a)

/-- A loop returns if each of its steps does. -/
theorem mapM_iff (as : List α) : Returns (as.mapM f) ↔ ∀ a ∈ as, Returns (f a) := by
  induction as with
  | nil => simp
  | cons a as ih => rw [List.mapM_cons, bind_and Iff.rfl (fun _ => bind_pure _), ih, List.forall_mem_cons]

end Returns

section Maps

variable {ε α β γ : Type}

theorem ok_bind (a : α) (f : α → Except ε β) : (Except.ok a >>= f) = f a := rfl

theorem bind_map (x : Except ε α) (f : α → β) (k : β → Except ε γ) : (x.map f >>= k) = x >>= fun a => k (f a) := by
  cases x <;> rfl

theorem map_bind (x : Except ε α) (k : α → Except ε β) (f : β → γ) :
    (x >>= k).map f = x >>= fun a => (k a).map f := by
  cases x <;> rfl

/-- A loop over what was encoded returns what each of its steps does. -/
theorem mapM_map {encode : α → β} {convert : β → Except ε γ} {kept : α → γ} {values : List α}
    (h : ∀ a ∈ values, convert (encode a) = .ok (kept a)) : (values.map encode).mapM convert = .ok (values.map kept) := by
  induction values with
  | nil => rfl
  | cons a values ih =>
    obtain ⟨ha, hrest⟩ := List.forall_mem_cons.mp h
    rw [List.map_cons, List.mapM_cons, ha, ih hrest]
    rfl

/-- Loops whose steps agree up to an encoding agree up to it. -/
theorem mapM_encoded {convert : γ → Except ε β} {convert' : γ → Except ε α} {encode : α → β}
    (h : ∀ v, convert v = (convert' v).map encode) (items : List γ) :
    items.mapM convert = (items.mapM convert').map (List.map encode) := by
  induction items with
  | nil => rfl
  | cons v items ih =>
    rw [List.mapM_cons, List.mapM_cons, h, ih, bind_map, map_bind]
    congr 1
    funext a
    rw [bind_map, map_bind]
    rfl

end Maps

end A2ARegistry.Base
