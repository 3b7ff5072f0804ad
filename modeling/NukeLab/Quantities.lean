import NukeLab.Binary64
import Mathlib.Tactic.Abel

namespace NukeLab.Quantities

/-- Cores, megabytes of memory, GPUs and servers, added up componentwise. -/
@[ext] structure Usage where
  cpu : ℚ
  memoryMb : Int
  gpu : Int
  servers : Int
  deriving DecidableEq

namespace Usage

instance : Zero Usage := ⟨⟨0, 0, 0, 0⟩⟩

instance : Add Usage := ⟨fun a b => ⟨a.cpu + b.cpu, a.memoryMb + b.memoryMb, a.gpu + b.gpu, a.servers + b.servers⟩⟩

instance : Neg Usage := ⟨fun a => ⟨-a.cpu, -a.memoryMb, -a.gpu, -a.servers⟩⟩

instance : Sub Usage := ⟨fun a b => ⟨a.cpu - b.cpu, a.memoryMb - b.memoryMb, a.gpu - b.gpu, a.servers - b.servers⟩⟩

@[simp] theorem zero_cpu : (0 : Usage).cpu = 0 := rfl
@[simp] theorem zero_memoryMb : (0 : Usage).memoryMb = 0 := rfl
@[simp] theorem zero_gpu : (0 : Usage).gpu = 0 := rfl
@[simp] theorem zero_servers : (0 : Usage).servers = 0 := rfl
@[simp] theorem add_cpu (a b : Usage) : (a + b).cpu = a.cpu + b.cpu := rfl
@[simp] theorem add_memoryMb (a b : Usage) : (a + b).memoryMb = a.memoryMb + b.memoryMb := rfl
@[simp] theorem add_gpu (a b : Usage) : (a + b).gpu = a.gpu + b.gpu := rfl
@[simp] theorem add_servers (a b : Usage) : (a + b).servers = a.servers + b.servers := rfl
@[simp] theorem neg_cpu (a : Usage) : (-a).cpu = -a.cpu := rfl
@[simp] theorem neg_memoryMb (a : Usage) : (-a).memoryMb = -a.memoryMb := rfl
@[simp] theorem neg_gpu (a : Usage) : (-a).gpu = -a.gpu := rfl
@[simp] theorem neg_servers (a : Usage) : (-a).servers = -a.servers := rfl
@[simp] theorem sub_cpu (a b : Usage) : (a - b).cpu = a.cpu - b.cpu := rfl
@[simp] theorem sub_memoryMb (a b : Usage) : (a - b).memoryMb = a.memoryMb - b.memoryMb := rfl
@[simp] theorem sub_gpu (a b : Usage) : (a - b).gpu = a.gpu - b.gpu := rfl
@[simp] theorem sub_servers (a b : Usage) : (a - b).servers = a.servers - b.servers := rfl

instance : AddCommGroup Usage where
  add_assoc a b c := by ext <;> simp only [add_cpu, add_memoryMb, add_gpu, add_servers, add_assoc]
  zero_add a := by ext <;> simp
  add_zero a := by ext <;> simp
  add_comm a b := by
    ext
    · exact add_comm a.cpu b.cpu
    · exact add_comm a.memoryMb b.memoryMb
    · exact add_comm a.gpu b.gpu
    · exact add_comm a.servers b.servers
  neg_add_cancel a := by ext <;> simp
  sub_eq_add_neg a b := by ext <;> simp only [sub_cpu, add_cpu, neg_cpu, sub_memoryMb, add_memoryMb, neg_memoryMb,
    sub_gpu, add_gpu, neg_gpu, sub_servers, add_servers, neg_servers, sub_eq_add_neg]
  nsmul := nsmulRec
  zsmul := zsmulRec

instance : LE Usage := ⟨fun a b => a.cpu ≤ b.cpu ∧ a.memoryMb ≤ b.memoryMb ∧ a.gpu ≤ b.gpu ∧ a.servers ≤ b.servers⟩

instance : DecidableLE Usage := fun a b =>
  inferInstanceAs (Decidable (a.cpu ≤ b.cpu ∧ a.memoryMb ≤ b.memoryMb ∧ a.gpu ≤ b.gpu ∧ a.servers ≤ b.servers))

def plus (a b : Usage) : Usage := { a + b with cpu := Binary64.nearest (a.cpu + b.cpu) }

def minus (a b : Usage) : Usage := { a - b with cpu := Binary64.nearest (a.cpu - b.cpu) }

def monus (a b : Usage) : Usage :=
  let difference := a.minus b
  ⟨max 0 difference.cpu, max 0 difference.memoryMb, max 0 difference.gpu, max 0 difference.servers⟩

/-- Each component added up as `sum` adds it. -/
def sum (usages : List Usage) : Usage where
  cpu := Binary64.sum (usages.map cpu)
  memoryMb := (usages.map memoryMb).sum
  gpu := (usages.map gpu).sum
  servers := (usages.map servers).sum

def Exact (usages : List Usage) : Prop := Binary64.Exact (usages.map cpu)

instance (usages : List Usage) : Decidable (Exact usages) := inferInstanceAs (Decidable (Binary64.Exact _))

section Exact

variable {usages others : List Usage} {a b : Usage}

theorem list_sum_cpu (usages : List Usage) : usages.sum.cpu = (usages.map cpu).sum := by
  induction usages with
  | nil => rfl
  | cons a usages ih => rw [List.sum_cons, List.map_cons, List.sum_cons, add_cpu, ih]

theorem Exact.sublist (h : Exact usages) (hsub : others.Sublist usages) : Exact others :=
  Binary64.Exact.sublist h (hsub.map cpu)

theorem Exact.nearest_cpu (h : Exact usages) : Binary64.nearest usages.sum.cpu = usages.sum.cpu := by
  rw [list_sum_cpu]
  exact Binary64.Exact.nearest_sum h

theorem Exact.sum (h : Exact usages) : Usage.sum usages = usages.sum := by
  have hcpu : Binary64.sum (usages.map cpu) = usages.sum.cpu := by
    rw [list_sum_cpu]
    exact Binary64.Exact.sum h
  rw [Usage.sum, hcpu]
  clear h hcpu
  induction usages with
  | nil => rfl
  | cons a usages ih =>
      rw [Usage.ext_iff] at ih
      obtain ⟨-, hmemory, hgpu, hservers⟩ := ih
      simp only [List.map_cons, List.sum_cons] at hmemory hgpu hservers ⊢
      rw [hmemory, hgpu, hservers]
      rfl

theorem plus_eq_add (h : Binary64.nearest (a + b).cpu = (a + b).cpu) : a.plus b = a + b := by
  rw [plus, ← add_cpu, h]

theorem monus_eq_sub (hle : b ≤ a) (h : Binary64.nearest (a - b).cpu = (a - b).cpu) : a.monus b = a - b := by
  obtain ⟨hcpu, hmemory, hgpu, hservers⟩ := hle
  rw [monus, minus, ← sub_cpu, h]
  ext
  · exact max_eq_right (sub_nonneg.mpr hcpu)
  · exact max_eq_right (sub_nonneg.mpr hmemory)
  · exact max_eq_right (sub_nonneg.mpr hgpu)
  · exact max_eq_right (sub_nonneg.mpr hservers)

/-- Seven tenths of a core put onto a tenth and taken off again leave less than the tenth. -/
example : ((⟨Double.div 1 10, 0, 0, 1⟩ : Usage).plus ⟨Double.div 7 10, 0, 0, 1⟩).monus ⟨Double.div 7 10, 0, 0, 1⟩ ≠
    ⟨Double.div 1 10, 0, 0, 1⟩ := by decide +kernel

end Exact

end Usage

end NukeLab.Quantities
