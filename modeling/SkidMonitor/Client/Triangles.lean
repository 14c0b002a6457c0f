import SkidMonitor.Lib.Blocks
import SkidMonitor.Lib.Float64

/-! The triangles of a blended draw of a VRM model are sorted by their depth, with their morphs. -/
namespace SkidMonitor.Client.Vrm

open Blocks

/-- `D` is what a morph target moves a vertex by. -/
structure CpuMorphTarget (D : Type) where
  targetIndex : ℕ
  deltas : List D

variable {V D : Type}

/-- The order of the triangles: `sort_by` keeps equal depths as they are. -/
def triangleOrder (depths : List F32) : List ℕ :=
  stableOrder (fun a b => (F32.totalCmp a b).isLE) depths

def sortMorphTarget (order : List ℕ) (target : CpuMorphTarget D) : Option (CpuMorphTarget D) :=
  (copyBlocks 3 target.deltas 0 order target.deltas).map fun deltas => { target with deltas }

/-- The vertices and the morph targets afterwards, or nothing if an index is out of bounds. -/
def sortBlendedTriangles (vertices : List V) (depths : List F32)
    (morphTargets : List (CpuMorphTarget D)) : Option (List V × List (CpuMorphTarget D)) := do
  let order := triangleOrder depths
  let vertices ← copyBlocks 3 vertices 0 order vertices
  let morphTargets ← morphTargets.mapM (sortMorphTarget order)
  return (vertices, morphTargets)

theorem totalCmp_isLE {a b : F32} : (a.totalCmp b).isLE ↔ a.totalPlace ≤ b.totalPlace := by
  rw [F32.totalCmp, ← Std.LawfulOrderOrd.isLE_compare]

/-- The depths come in the total order, equal ones as they came in. -/
def DepthOrdered (depths : List F32) (order : List ℕ) : Prop :=
  order.Pairwise fun i j => ∀ a ∈ depths[i]?, ∀ b ∈ depths[j]?,
    a.totalCmp b = .lt ∨ a.totalCmp b = .eq ∧ i < j

theorem triangleOrder_ordered (depths : List F32) : DepthOrdered depths (triangleOrder depths) := by
  have htrans : ∀ a b c : F32, (a.totalCmp b).isLE → (b.totalCmp c).isLE → (a.totalCmp c).isLE := by
    intro a b c hab hbc
    exact totalCmp_isLE.mpr ((totalCmp_isLE.mp hab).trans (totalCmp_isLE.mp hbc))
  have htotal : ∀ a b : F32, (a.totalCmp b).isLE || (b.totalCmp a).isLE := by
    intro a b
    simpa only [Bool.or_eq_true, totalCmp_isLE] using le_total a.totalPlace b.totalPlace
  refine (stableOrder_pairwise htrans htotal).imp fun {i j} h a ha b hb => ?_
  rw [Option.mem_def.mp ha, Option.mem_def.mp hb] at h
  obtain ⟨hle, hstable⟩ : (a.totalCmp b).isLE ∧ ((b.totalCmp a).isLE → i < j) := h
  cases hcmp : a.totalCmp b with
  | lt => exact .inl rfl
  | gt => rw [hcmp] at hle; cases hle
  | eq =>
    refine .inr ⟨rfl, hstable ?_⟩
    have heq : a.totalPlace = b.totalPlace := Std.LawfulEqOrd.eq_of_compare hcmp
    exact totalCmp_isLE.mpr heq.ge

/-- The same target, with its deltas moved in blocks of three. -/
def CpuMorphTarget.Rearranged (order : List ℕ) (target target' : CpuMorphTarget D) : Prop :=
  target'.targetIndex = target.targetIndex ∧ Rearranges 3 order target.deltas target'.deltas

theorem sortMorphTarget_rearranges {target : CpuMorphTarget D} {order : List ℕ} {n : ℕ}
    (horder : order.Perm (List.range n)) (h : target.deltas.length = 3 * n) :
    ∃ sorted, sortMorphTarget order target = some sorted ∧ target.Rearranged order sorted := by
  obtain ⟨deltas, hcopy, hmoved⟩ := copyBlocks_rearranges h horder
  exact ⟨{ target with deltas }, by rw [sortMorphTarget, hcopy]; rfl, rfl, hmoved⟩

theorem sortMorphTargets {targets : List (CpuMorphTarget D)} {order : List ℕ} {n : ℕ}
    (horder : order.Perm (List.range n)) (h : ∀ target ∈ targets, target.deltas.length = 3 * n) :
    ∃ sorted, targets.mapM (sortMorphTarget order) = some sorted ∧
      List.Forall₂ (CpuMorphTarget.Rearranged order) targets sorted := by
  induction targets with
  | nil => exact ⟨[], rfl, .nil⟩
  | cons target targets ih =>
    obtain ⟨first, hfirst, hmoved⟩ :=
      sortMorphTarget_rearranges horder (h target List.mem_cons_self)
    obtain ⟨rest, hrest, hall⟩ := ih fun t ht => h t (List.mem_cons_of_mem _ ht)
    refine ⟨first :: rest, ?_, .cons hmoved hall⟩
    rw [List.mapM_cons, hfirst, hrest]
    rfl

/-- One order of the triangles, stable by depth, is applied to the vertices and to every morph
target, and nothing else changes. -/
theorem sortBlendedTriangles_joint (vertices : List V) (depths : List F32)
    (targets : List (CpuMorphTarget D)) (hvertices : vertices.length = 3 * depths.length)
    (htargets : ∀ target ∈ targets, target.deltas.length = 3 * depths.length) :
    ∃ order vertices' targets',
      sortBlendedTriangles vertices depths targets = some (vertices', targets') ∧
      order.Perm (List.range depths.length) ∧ DepthOrdered depths order ∧
      Rearranges 3 order vertices vertices' ∧
      List.Forall₂ (CpuMorphTarget.Rearranged order) targets targets' := by
  have horder : (triangleOrder depths).Perm (List.range depths.length) := stableOrder_perm
  obtain ⟨vertices', hcopy, hmoved⟩ := copyBlocks_rearranges hvertices horder
  obtain ⟨targets', hmap, hall⟩ := sortMorphTargets horder htargets
  refine ⟨_, vertices', targets', ?_, horder, triangleOrder_ordered depths, hmoved, hall⟩
  rw [sortBlendedTriangles, hcopy, hmap]
  rfl

/-- Three triangles, two of them at one depth, with one morph target. -/
theorem sortBlendedTriangles_joint_three : ∃ order vertices' targets',
    sortBlendedTriangles [0, 1, 2, 3, 4, 5, 6, 7, 8] [⟨0x40000000⟩, ⟨0xC0000000⟩, ⟨0x40000000⟩]
      [⟨7, ['a', 'b', 'c', 'd', 'e', 'f', 'g', 'h', 'i']⟩] = some (vertices', targets') ∧
    order.Perm (List.range 3) ∧
    DepthOrdered [⟨0x40000000⟩, ⟨0xC0000000⟩, ⟨0x40000000⟩] order ∧
    Rearranges 3 order [0, 1, 2, 3, 4, 5, 6, 7, 8] vertices' ∧
    List.Forall₂ (CpuMorphTarget.Rearranged order)
      [⟨7, ['a', 'b', 'c', 'd', 'e', 'f', 'g', 'h', 'i']⟩] targets' :=
  sortBlendedTriangles_joint _ _ _ rfl (by simp)

end SkidMonitor.Client.Vrm
