import Mathlib
import A2ARegistry.Base.Like

namespace A2ARegistry.Base

variable {c d w : Char}

/-- Only a letter has another lower case. -/
theorem toLower_other (hc : c.isAlpha = false) : c.toLower = c :=
  Char.toLower_eq_of_not_isUpper fun hupper => by simp [Char.isAlpha, hupper] at hc

/-- What is no letter is the lower case of itself only. -/
theorem toLower_eq_other (hw : w.isAlpha = false) (h : c.toLower = w) : c = w := by
  have halpha : c.isAlpha = false := by rw [← Char.isAlpha_toLower_eq_isAlpha, h, hw]
  rw [← h, toLower_other halpha]

/-- What is no letter has one case. -/
theorem sameLetter_other (hc : c.isAlpha = false) (h : sameLetter c d = true) : c = d := by
  have hlower : c.toLower = d.toLower := by simpa [sameLetter] using h
  exact (toLower_eq_other hc (hlower.symm.trans (toLower_other hc))).symm

theorem sameLetters_eq {chars spelled : List Char} (h : List.Forall₂ (fun c d => sameLetter c d = true) chars spelled)
    (hletters : ∀ c ∈ chars, c.isAlpha = false) : chars = spelled := by
  induction h with
  | nil => rfl
  | @cons c d _ _ hletter _ ih =>
    rw [sameLetter_other (hletters c List.mem_cons_self) hletter, ih fun u hu => hletters u (List.mem_cons_of_mem _ hu)]

end A2ARegistry.Base
