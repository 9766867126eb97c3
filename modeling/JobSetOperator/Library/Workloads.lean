import Mathlib.Tactic
import Mathlib.Algebra.BigOperators.Group.Finset.Basic
import Mathlib.Logic.Relation

/-!
# Workloads that restart within a budget

A workload has parts. It runs until it completes or fails, and on the way it is started
again as a whole, or one part of it is. A restart may be charged to a budget, and one
that is charged needs something left of it. This is all there is to the machine; what a
run of it can and cannot do follows.
-/
namespace JobSetOperator.Library

/-- What has become of a workload. -/
inductive Fate
  | running
  | completed
  | failed
  deriving DecidableEq, Repr

/-- How often all of it and each part was started again, and how many restarts were charged. -/
@[ext]
structure Workload (ι : Type) where
  fate : Fate
  restarts : ℕ
  partRestarts : ι → ℕ
  charged : ℕ

namespace Workload

variable {ι : Type}

/-- A workload that has just been started. -/
def new : Workload ι := ⟨.running, 0, fun _ => 0, 0⟩

/-- The charge is nothing, or one that the budget still has. -/
def Affords (budget : Option ℤ) (w : Workload ι) (charge : ℕ) : Prop :=
  charge = 0 ∨ charge = 1 ∧ ∃ b, budget = some b ∧ (w.charged : ℤ) < b

theorem Affords.charge_le {budget : Option ℤ} {w : Workload ι} {charge : ℕ}
    (h : w.Affords budget charge) : charge ≤ 1 := by
  rcases h with rfl | ⟨rfl, -⟩ <;> omega

/-- The restarts of all of it and of its parts. -/
def total (parts : Finset ι) (w : Workload ι) : ℕ := w.restarts + ∑ i ∈ parts, w.partRestarts i

variable [DecidableEq ι]

/-- The steps of a running workload. -/
inductive Step (parts : Finset ι) (budget : Option ℤ) (w : Workload ι) : Workload ι → Prop
  | complete (running : w.fate = .running) : Step parts budget w { w with fate := .completed }
  | fail (running : w.fate = .running) : Step parts budget w { w with fate := .failed }
  | restart (running : w.fate = .running) {charge : ℕ} (affords : w.Affords budget charge) :
    Step parts budget w
      { w with restarts := w.restarts + 1, charged := w.charged + charge }
  | restartPart (running : w.fate = .running) {i : ι} (part : i ∈ parts) {charge : ℕ}
    (affords : w.Affords budget charge) : Step parts budget w
      { w with
        partRestarts := Function.update w.partRestarts i (w.partRestarts i + 1)
        charged := w.charged + charge }

/-- Any number of steps. -/
def Run (parts : Finset ι) (budget : Option ℤ) : Workload ι → Workload ι → Prop :=
  Relation.ReflTransGen (Step parts budget)

variable {parts : Finset ι} {budget : Option ℤ} {w w' : Workload ι}

theorem Step.running (h : Step parts budget w w') : w.fate = .running := by
  cases h with
  | complete running => exact running
  | fail running => exact running
  | restart running affords => exact running
  | restartPart running part affords => exact running

/-- A workload that has ended stays as it is. -/
theorem Run.settled (h : Run parts budget w w') (hw : w.fate ≠ .running) : w' = w := by
  induction h with
  | refl => rfl
  | tail _ hstep ih =>
    rw [ih] at hstep
    exact absurd hstep.running hw

/-- The counters never go down. -/
theorem Step.le (h : Step parts budget w w') :
    w.restarts ≤ w'.restarts ∧ (∀ i, w.partRestarts i ≤ w'.partRestarts i) ∧
      w.charged ≤ w'.charged := by
  cases h with
  | complete running => exact ⟨le_rfl, fun _ => le_rfl, le_rfl⟩
  | fail running => exact ⟨le_rfl, fun _ => le_rfl, le_rfl⟩
  | restart running affords => exact ⟨Nat.le_succ _, fun _ => le_rfl, Nat.le_add_right _ _⟩
  | @restartPart running i part charge affords =>
    refine ⟨le_rfl, fun j => ?_, Nat.le_add_right _ _⟩
    dsimp only
    by_cases hj : j = i
    · subst hj
      rw [Function.update_self]
      exact Nat.le_succ _
    · rw [Function.update_of_ne hj]

theorem Run.le (h : Run parts budget w w') :
    w.restarts ≤ w'.restarts ∧ (∀ i, w.partRestarts i ≤ w'.partRestarts i) ∧
      w.charged ≤ w'.charged := by
  induction h with
  | refl => exact ⟨le_rfl, fun _ => le_rfl, le_rfl⟩
  | tail _ hstep ih =>
    obtain ⟨hrestarts, hparts, hcharged⟩ := hstep.le
    exact ⟨ih.1.trans hrestarts, fun i => (ih.2.1 i).trans (hparts i), ih.2.2.trans hcharged⟩

/-- One restart counts once, whatever is charged for it. -/
theorem total_restartPart {i : ι} (part : i ∈ parts) (charge : ℕ) :
    total parts { w with
      partRestarts := Function.update w.partRestarts i (w.partRestarts i + 1)
      charged := w.charged + charge } = w.total parts + 1 := by
  have hsum : ∑ j ∈ parts, Function.update w.partRestarts i (w.partRestarts i + 1) j =
      (∑ j ∈ parts, w.partRestarts j) + 1 := by
    rw [Finset.sum_update_of_mem part, ← Finset.sum_sdiff (Finset.singleton_subset_iff.mpr part),
      Finset.sum_singleton]
    omega
  unfold total
  dsimp only
  rw [hsum, Nat.add_assoc]

/-- No more is charged than has been restarted. -/
theorem Step.charged_le_total (h : Step parts budget w w') (hw : w.charged ≤ w.total parts) :
    w'.charged ≤ w'.total parts := by
  cases h with
  | complete running => exact hw
  | fail running => exact hw
  | restart running affords =>
    have hcharge := affords.charge_le
    unfold total at hw ⊢
    dsimp only
    omega
  | restartPart running part affords =>
    have hcharge := affords.charge_le
    rw [total_restartPart part]
    dsimp only
    omega

/-- No more is charged than the budget has. -/
theorem Step.charged_le_budget (h : Step parts budget w w') {b : ℤ} (hb : budget = some b)
    (hw : (w.charged : ℤ) ≤ b) : (w'.charged : ℤ) ≤ b := by
  have hafter : ∀ {charge : ℕ}, w.Affords budget charge → ((w.charged + charge : ℕ) : ℤ) ≤ b := by
    rintro charge (rfl | ⟨rfl, b', hb', hleft⟩)
    · exact hw
    · obtain rfl : b' = b := Option.some.inj (hb'.symm.trans hb)
      push_cast
      omega
  cases h with
  | complete running => exact hw
  | fail running => exact hw
  | restart running affords => exact hafter affords
  | restartPart running part affords => exact hafter affords

/-- What a run from the start can have charged. -/
theorem Run.charged_le (h : Run parts budget new w) :
    w.charged ≤ w.total parts ∧ ∀ b, budget = some b → 0 ≤ b → (w.charged : ℤ) ≤ b := by
  induction h with
  | refl => exact ⟨Nat.zero_le _, fun b _ hpos => hpos⟩
  | tail _ hstep ih =>
    refine ⟨hstep.charged_le_total ih.1, fun b hb hpos => ?_⟩
    exact hstep.charged_le_budget hb (ih.2 b hb hpos)

end Workload

end JobSetOperator.Library
