import Mathlib.Algebra.Group.Nat.Defs
import Mathlib.Data.BitVec
import Mathlib.Data.Nat.Basic

namespace NukeLab.Networks

variable {w : Nat}

/-- The addresses that begin with the first bits of `base`. -/
structure Network (w : Nat) where
  base : BitVec w
  length : Nat
  hlength : length ≤ w

namespace Network

def contains (n : Network w) (a : BitVec w) : Bool := a >>> (w - n.length) = n.base >>> (w - n.length)

def size (n : Network w) : Nat := 2 ^ (w - n.length)

def first (n : Network w) : Nat := n.base.toNat / n.size * n.size

/-- `n` has every address of `m`. -/
def Covers (n m : Network w) : Prop := n.length ≤ m.length ∧ n.contains m.base = true

instance (n m : Network w) : Decidable (n.Covers m) := inferInstanceAs (Decidable (_ ∧ _))

variable {n m : Network w} {a b : BitVec w}

theorem size_pos (n : Network w) : 0 < n.size := Nat.two_pow_pos _

theorem contains_iff : n.contains a = true ↔ a.toNat / n.size = n.base.toNat / n.size := by
  rw [contains, decide_eq_true_iff, ← BitVec.toNat_inj, BitVec.toNat_ushiftRight, BitVec.toNat_ushiftRight,
    Nat.shiftRight_eq_div_pow, Nat.shiftRight_eq_div_pow, size]

theorem contains_base (n : Network w) : n.contains n.base = true := contains_iff.mpr rfl

theorem contains_iff_between : n.contains a = true ↔ n.first ≤ a.toNat ∧ a.toNat < n.first + n.size := by
  have hpos := n.size_pos
  rw [contains_iff, first, Nat.div_eq_iff hpos]
  refine and_congr_right fun _ => ?_
  omega

theorem first_add_size_le (n : Network w) : n.first + n.size ≤ 2 ^ w := by
  have hpow : 2 ^ w = n.size * 2 ^ n.length := by
    rw [size, ← Nat.pow_add, Nat.sub_add_cancel n.hlength]
  have hlt : n.base.toNat / n.size < 2 ^ n.length := Nat.div_lt_of_lt_mul (hpow ▸ n.base.isLt)
  rw [first, ← Nat.add_one_mul, hpow, Nat.mul_comm]
  exact Nat.mul_le_mul_left _ hlt

theorem contains_of_le (hlength : n.length ≤ m.length) (ha : m.contains a = true) (hb : m.contains b = true)
    (h : n.contains a = true) : n.contains b = true := by
  have hsize : n.size = m.size * 2 ^ (m.length - n.length) := by
    have hm := m.hlength
    rw [size, size, ← Nat.pow_add]
    congr 1
    omega
  rw [contains_iff] at ha hb h ⊢
  rw [hsize, ← Nat.div_div_eq_div_mul] at h ⊢
  rw [hb, ← ha, h]

theorem Covers.contains (h : n.Covers m) (ha : m.contains a = true) : n.contains a = true :=
  contains_of_le h.1 m.contains_base ha h.2

theorem covers_iff : n.Covers m ↔ ∀ a, m.contains a = true → n.contains a = true := by
  refine ⟨fun h a ha => h.contains ha, fun h => ⟨?_, h _ m.contains_base⟩⟩
  -- A longer beginning leaves some of the addresses out: those a whole block above the lowest.
  by_contra hlonger
  have hsize : n.size < m.size := by
    have hn := n.hlength
    exact Nat.pow_lt_pow_right (by decide) (by omega)
  have hfits := m.first_add_size_le
  have hn := n.size_pos
  have hlow : (BitVec.ofNat w m.first).toNat = m.first := by
    rw [BitVec.toNat_ofNat, Nat.mod_eq_of_lt (by omega)]
  have hhigh : (BitVec.ofNat w (m.first + n.size)).toNat = m.first + n.size := by
    rw [BitVec.toNat_ofNat, Nat.mod_eq_of_lt (by omega)]
  have hfirst := contains_iff.mp (h _ (contains_iff_between.mpr ⟨hlow.ge, by omega⟩))
  have hnext := contains_iff.mp (h _ (contains_iff_between.mpr ⟨by omega, by omega⟩ :
    m.contains (BitVec.ofNat w (m.first + n.size)) = true))
  rw [hlow] at hfirst
  rw [hhigh, Nat.add_div_right _ n.size_pos] at hnext
  omega

end Network

end NukeLab.Networks
