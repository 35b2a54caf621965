/-!
# Letter case

Lower case changes the twenty-six capitals of ASCII and nothing else. What treats a capital as its
small letter therefore treats any two texts alike that differ in letter case only.

- `apply_toLower`: what does not distinguish a capital from its small letter.
- `forall_mem_of_map_toLower`: a property of all characters that does not depend on letter case.
- `map_toLower_idem`: a text in lower case stays as it is.
-/

namespace Gatehouse.Text

theorem toLower_eq_or_capital (c : Char) :
    c.toLower = c ∨ 0x41 ≤ c.toNat ∧ c.toNat ≤ 0x5A := by
  unfold Char.toLower
  split
  · next hupper =>
    simp only [UInt32.le_iff_toNat_le, ge_iff_le] at hupper
    exact .inr hupper
  · exact .inl rfl

/-- It is enough to look at the capitals. -/
theorem apply_toLower {β : Type} (f : Char → β)
    (h : ∀ n < 26, f (Char.ofNat (0x41 + n)).toLower = f (Char.ofNat (0x41 + n))) (c : Char) :
    f c.toLower = f c := by
  rcases toLower_eq_or_capital c with heq | ⟨hlow, hhigh⟩
  · rw [heq]
  · have hc := h (c.toNat - 0x41) (by omega)
    rwa [show 0x41 + (c.toNat - 0x41) = c.toNat by omega, Char.ofNat_toNat] at hc

variable {s t : List Char}

/-- A property of all characters is shared by the texts that differ in letter case only. -/
theorem forall_mem_of_map_toLower {p : Char → Bool} (hp : ∀ c, p c.toLower = p c)
    (heq : s.map Char.toLower = t.map Char.toLower) (h : ∀ c ∈ s, p c = true) :
    ∀ c ∈ t, p c = true := by
  intro c hc
  have hmem : c.toLower ∈ s.map Char.toLower := heq ▸ List.mem_map_of_mem hc
  obtain ⟨d, hd, hdc⟩ := List.mem_map.1 hmem
  rw [← hp c, ← hdc, hp d]
  exact h d hd

theorem map_toLower_idem (s : List Char) :
    (s.map Char.toLower).map Char.toLower = s.map Char.toLower := by
  rw [List.map_map]
  exact List.map_congr_left fun c _ => apply_toLower Char.toLower (by decide) c

end Gatehouse.Text
