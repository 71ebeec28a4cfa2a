import Mathlib.Order.Bounds.Defs
import ColonyCache.Proofs.World.Regions
/-! The region size a new map gets is the least size that fits, found alike by the halving search
and by the loop that tries the sizes one at a time. -/
namespace ColonyCache

/-! ## Fewer blocks for wider blocks -/

theorem ceilDiv_le_ceilDiv {w s t : Nat} (hs : 0 < s) (hst : s ≤ t) :
    ceilDiv w t ≤ ceilDiv w s := by
  -- `ceilDiv w s` blocks of size `s` already cover the side, so as many of size `t` do too
  have hcover : w ≤ ceilDiv w s * s :=
    Nat.le_of_not_lt fun h => Nat.lt_irrefl _ ((lt_ceilDiv_iff hs).mpr h)
  exact Nat.le_of_not_lt fun h =>
    Nat.lt_irrefl w (Nat.lt_of_le_of_lt (Nat.le_trans hcover (Nat.mul_le_mul_left _ hst))
      ((lt_ceilDiv_iff (Nat.lt_of_lt_of_le hs hst)).mp h))

theorem regionCount_le_regionCount {w h s t : Nat} (hs : 0 < s) (hst : s ≤ t) :
    regionCount w h t ≤ regionCount w h s :=
  Nat.mul_le_mul (ceilDiv_le_ceilDiv hs hst) (ceilDiv_le_ceilDiv hs hst)

/-! ## The search finds the least size that fits -/

section Search

variable {ok : Nat → Bool}

theorem le_leastAbove {lo hi : Nat} (h : lo ≤ hi) : lo ≤ leastAbove ok lo hi := by
  fun_induction leastAbove ok lo hi with
  | case1 lo hi hlt mid _ ih => exact ih (by omega)
  | case2 lo hi hlt mid _ ih => exact Nat.le_trans (by omega) (ih (by omega))
  | case3 => exact h

/-- For `ok` false at `lo` and upward closed from there, the search answers at most every `t` with
`ok t`. -/
theorem leastAbove_le_of_ok {lo hi t : Nat}
    (hmono : ∀ s u, lo ≤ s → s ≤ u → ok s = true → ok u = true) (hlo : ok lo = false)
    (hlt : lo ≤ t) (ht : ok t = true) : leastAbove ok lo hi ≤ t := by
  fun_induction leastAbove ok lo hi with
  | case1 lo hi _ mid _ ih => exact ih hmono hlo hlt
  | case2 lo hi _ mid hmid ih =>
    -- `ok` fails at `mid`, so every point where it holds lies above `mid`
    have hmt : mid ≤ t := Nat.le_of_not_lt fun h => hmid (hmono t mid hlt (Nat.le_of_lt h) ht)
    exact ih (fun s u hs hsu => hmono s u (by omega) hsu) (by simpa using hmid) hmt
  | case3 lo hi hlt' =>
    have hne : t ≠ lo := fun he => by rw [he, hlo] at ht; cases ht
    omega

end Search

theorem fittingRegionSize_isLeast (w h r : Nat) :
    IsLeast {s | max r 1 ≤ s ∧ regionCount w h s ≤ regionsPerMap}
      (fittingRegionSize w h r) := by
  obtain ⟨-, -, hfits⟩ := fittingRegionSize_spec w h r
  refine ⟨⟨?_, hfits⟩, fun t ht => ?_⟩
  · unfold fittingRegionSize
    dsimp only
    split
    · exact Nat.le_refl _
    · exact le_leastAbove (Nat.le_max_left _ _)
  · obtain ⟨hrt, ht⟩ := ht
    unfold fittingRegionSize
    dsimp only
    split
    · exact hrt
    · next hlo =>
      refine leastAbove_le_of_ok (fun s u hs hsu hok => ?_) (by simpa using hlo) hrt
        (decide_eq_true ht)
      exact decide_eq_true (Nat.le_trans (regionCount_le_regionCount (by omega) hsu)
        (of_decide_eq_true hok))

theorem fittingRegionSize_lt_size (w h r : UInt32) :
    fittingRegionSize w.toNat h.toNat r.toNat < UInt32.size := by
  obtain ⟨-, hbound, -⟩ := fittingRegionSize_spec w.toNat h.toNat r.toNat
  -- each of the sides and the size asked for is a 32-bit number, so their largest is too
  have := r.toNat_lt_size
  have := w.toNat_lt_size
  have := h.toNat_lt_size
  simp only [UInt32.size] at *
  omega

/-! ## Trying the sizes one at a time -/

/-- From a size at most `n`, below which none fits, the loop reaches a fitting 32-bit `n`. -/
theorem regionSizeLoop_eq {w h : UInt32} {n : Nat} (hn : n < UInt32.size)
    (hfit : regionCount w.toNat h.toNat n ≤ regionsPerMap) (size : UInt32) (hle : size.toNat ≤ n)
    (hbelow : ∀ s, size.toNat ≤ s → s < n → regionsPerMap < regionCount w.toNat h.toNat s) :
    regionSizeLoop w h size = some n.toUInt32 := by
  fun_induction regionSizeLoop w h size with
  | case1 size hfits =>
    -- a size that fits is no size below `n`
    have hsn : size.toNat = n := by
      by_contra hne
      exact Nat.lt_irrefl _ (Nat.lt_of_lt_of_le (hbelow _ (Nat.le_refl _) (by omega)) hfits)
    rw [← hsn]
    simp
  | case2 hno =>
    -- at the largest size the only size left is `n`, which fits
    have hnmax : n = 4294967295 := by
      simp only [UInt32.size] at hn
      simp only [UInt32.reduceToNat] at hle
      omega
    subst hnmax
    exact absurd hfit hno
  | case3 size hno hmax ih =>
    have hne : size.toNat ≠ 4294967295 := fun he => hmax (UInt32.toNat_inj.mp he)
    have hsucc : (size + 1).toNat = size.toNat + 1 := by
      have := size.toNat_lt_size
      rw [UInt32.toNat_add, UInt32.toNat_one]
      simp only [UInt32.size] at this ⊢
      omega
    have hlt : size.toNat < n := Nat.lt_of_le_of_ne hle fun he => hno (he ▸ hfit)
    exact ih (by omega) fun s hs hsn => hbelow s (by omega) hsn

theorem regionSizeLoop_eq_fittingRegionSize (w h r : UInt32) :
    regionSizeLoop w h (max r 1) = some (fittingRegionSize w.toNat h.toNat r.toNat).toUInt32 := by
  obtain ⟨⟨hlo, hfit⟩, hleast⟩ := fittingRegionSize_isLeast w.toNat h.toNat r.toNat
  have hmax : (max r 1).toNat = max r.toNat 1 := by
    rw [UInt32.max_def, Nat.max_def]
    split <;> split <;> simp_all [UInt32.le_iff_toNat_le]
  refine regionSizeLoop_eq (fittingRegionSize_lt_size w h r) hfit _ (hmax ▸ hlo)
    fun s hs hsn => Nat.lt_of_not_le fun hs' => ?_
  exact Nat.lt_irrefl _ (Nat.lt_of_lt_of_le hsn (hleast ⟨hmax ▸ hs, hs'⟩))

/-- The loop over 32-bit sizes from `max r 1` never overflows and stops at the least size that
fits, which is at most the largest of `r`, `w`, `h` and one. -/
theorem fitting_region_size_least (w h r : UInt32) :
    regionSizeLoop w h (max r 1) = some (fittingRegionSize w.toNat h.toNat r.toNat).toUInt32 ∧
      IsLeast {s | max r.toNat 1 ≤ s ∧ regionCount w.toNat h.toNat s ≤ regionsPerMap}
        (fittingRegionSize w.toNat h.toNat r.toNat) ∧
      fittingRegionSize w.toNat h.toNat r.toNat ≤ max (max r.toNat w.toNat) (max h.toNat 1) ∧
      (fittingRegionSize w.toNat h.toNat r.toNat).toUInt32.toNat =
        fittingRegionSize w.toNat h.toNat r.toNat := by
  obtain ⟨-, hbound, -⟩ := fittingRegionSize_spec w.toNat h.toNat r.toNat
  refine ⟨regionSizeLoop_eq_fittingRegionSize w h r, fittingRegionSize_isLeast _ _ _, by omega,
    Nat.mod_eq_of_lt (fittingRegionSize_lt_size w h r)⟩

end ColonyCache
