import Mathlib.Data.List.Forall2

/-! # Objects and their copies

  Several objects of one kind are called in any order, and copies of them are made on the
  way. Each object is then what its own calls have made of it, whatever is called of its
  copies. When the objects are related to others that answer every call alike, and stay
  related, so are all objects after any calls. It does not matter what the objects do behind
  a call that leaves a model of another kind than the models are to be.
-/

namespace ArchetypeStore

/-- A call of one of several objects. -/
inductive CopyCall (κ : Type) where
  | use (target : Nat) (call : κ)
  /-- A copy of an object is put behind all objects. -/
  | copy (source : Nat)

namespace Copies

variable {σ τ κ α : Type} (act : σ → κ → α × σ)

/-- Carry out a call. Where there is no object nothing is answered. -/
def step (objects : List σ) : CopyCall κ → Option α × List σ
  | .use target call =>
    match objects[target]? with
    | none => (none, objects)
    | some s => (some (act s call).1, objects.set target (act s call).2)
  | .copy source => (none, objects ++ objects[source]?.toList)

theorem step_use {objects : List σ} {target : Nat} {s : σ} (hs : objects[target]? = some s)
    (call : κ) : step act objects (.use target call) =
      (some (act s call).1, objects.set target (act s call).2) := by
  simp only [step, hs]

theorem step_absent {objects : List σ} {target : Nat} (hs : objects[target]? = none) (call : κ) :
    step act objects (.use target call) = (none, objects) := by
  simp only [step, hs]

/-- Carry out calls in turn. -/
def run (objects : List σ) : List (CopyCall κ) → List (Option α) × List σ
  | [] => ([], objects)
  | c :: calls =>
    let (answer, objects) := step act objects c
    let (answers, objects) := run objects calls
    (answer :: answers, objects)

theorem run_append (objects : List σ) (earlier later : List (CopyCall κ)) :
    (run act objects (earlier ++ later)).2 = (run act (run act objects earlier).2 later).2 := by
  induction earlier generalizing objects with
  | nil => rfl
  | cons c earlier ih => exact ih _

/-! ### An object and its own calls -/

/-- What calls make of an object. -/
def after (s : σ) (calls : List κ) : σ := calls.foldl (fun s call => (act s call).2) s

/-- All objects are of this kind, after any number of the calls. -/
def Throughout (P : σ → Prop) (objects : List σ) (calls : List (CopyCall κ)) : Prop :=
  ∀ n, ∀ s ∈ (run act objects (calls.take n)).2, P s

theorem throughout_cons {P : σ → Prop} {objects : List σ} {c : CopyCall κ}
    {calls : List (CopyCall κ)} (h : Throughout act P objects (c :: calls)) :
    (∀ s ∈ (step act objects c).2, P s) ∧ Throughout act P (step act objects c).2 calls :=
  ⟨h 1, fun n => h (n + 1)⟩

/-- Related objects answer alike every call that leaves a model of this kind, and they are
related again. -/
def Agree (P : τ → Prop) (R : σ → τ → Prop) (act : σ → κ → α × σ) (act' : τ → κ → α × τ) :
    Prop :=
  ∀ s t, R s t → ∀ call, P (act' t call).2 →
    (act s call).1 = (act' t call).1 ∧ R (act s call).2 (act' t call).2

variable {P : τ → Prop} {R : σ → τ → Prop} {objects : List σ} {models : List τ}

theorem related_at (h : List.Forall₂ R objects models) (n : Nat) :
    (objects[n]? = none ∧ models[n]? = none) ∨
      ∃ s t, objects[n]? = some s ∧ models[n]? = some t ∧ R s t := by
  induction h generalizing n with
  | nil => exact .inl ⟨rfl, rfl⟩
  | @cons s t _ _ hst _ ih =>
    cases n with
    | zero => exact .inr ⟨s, t, rfl, rfl, hst⟩
    | succ n => exact ih n

theorem related_set (h : List.Forall₂ R objects models) {s : σ} {t : τ} (hst : R s t) (n : Nat) :
    List.Forall₂ R (objects.set n s) (models.set n t) := by
  induction h generalizing n with
  | nil => exact .nil
  | cons hhead htail ih =>
    cases n with
    | zero => exact .cons hst htail
    | succ n => exact .cons hhead (ih n)

variable {act} {act' : τ → κ → α × τ}

theorem Agree.step (h : Agree P R act act') (hrel : List.Forall₂ R objects models)
    {c : CopyCall κ} (hkind : ∀ t ∈ (step act' models c).2, P t) :
    (step act objects c).1 = (step act' models c).1 ∧
      List.Forall₂ R (step act objects c).2 (step act' models c).2 := by
  cases c with
  | use target call =>
    rcases related_at hrel target with ⟨hs, ht⟩ | ⟨s, t, hs, ht, hst⟩
    · rw [step_absent act hs, step_absent act' ht]
      exact ⟨rfl, hrel⟩
    · rw [step_use act' ht] at hkind
      have hlt : target < models.length := (List.getElem?_eq_some_iff.mp ht).1
      obtain ⟨hanswer, hagain⟩ := h s t hst call (hkind _ (List.mem_set hlt _))
      rw [step_use act hs, step_use act' ht]
      exact ⟨congrArg some hanswer, related_set hrel hagain target⟩
  | copy source =>
    refine ⟨rfl, List.rel_append hrel ?_⟩
    rcases related_at hrel source with ⟨hs, ht⟩ | ⟨s, t, hs, ht, hst⟩
    · rw [hs, ht]
      exact .nil
    · rw [hs, ht]
      exact .cons hst .nil

/-- Related objects give the same answers to any calls. -/
theorem Agree.run (h : Agree P R act act') (hrel : List.Forall₂ R objects models)
    {calls : List (CopyCall κ)} (hkind : Throughout act' P models calls) :
    (run act objects calls).1 = (run act' models calls).1 ∧
      List.Forall₂ R (run act objects calls).2 (run act' models calls).2 := by
  induction calls generalizing objects models with
  | nil => exact ⟨rfl, hrel⟩
  | cons c calls ih =>
    obtain ⟨hfirst, hlater⟩ := throughout_cons act' hkind
    obtain ⟨hanswer, hstep⟩ := h.step hrel hfirst
    obtain ⟨hanswers, hrun⟩ := ih hstep hlater
    unfold Copies.run
    exact ⟨congrArg₂ List.cons hanswer hanswers, hrun⟩

end Copies

end ArchetypeStore
