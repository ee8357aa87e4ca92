import ArchetypeStore.SetHash
import Mathlib.Algebra.Group.Nat.Defs

/-! # Hashes as numbers in base 31

  The hash of a set is a number modulo `2 ^ 64` whose digits in base 31 are the indices, the
  greatest index last. A digit may be greater than the base, so several rows of digits may
  stand for one number; what makes up for it is that the digits of a set fall.

  Digits are listed from the last one on. The last digit of a number is then known modulo
  31, and the induction on the list goes from the end of the number to its front.
-/

namespace ArchetypeStore

/-- The number with these digits in base 31, the last digit first. -/
def digitValue : List Nat → Nat
  | [] => 0
  | d :: rest => d + 31 * digitValue rest

theorem digitValue_append (ds es : List Nat) :
    digitValue (ds ++ es) = digitValue ds + 31 ^ ds.length * digitValue es := by
  induction ds with
  | nil => simp [digitValue]
  | cons d rest ih =>
    simp only [List.cons_append, digitValue, ih, List.length_cons, Nat.pow_succ]
    rw [Nat.mul_add, ← Nat.mul_assoc, Nat.mul_comm 31 (31 ^ rest.length), Nat.add_assoc]

theorem toNat_setHash (indices : List Nat) :
    (setHash indices).toNat = digitValue indices.reverse % 2 ^ 64 := by
  rw [← List.reverse_reverse indices]
  generalize indices.reverse = ds
  rw [List.reverse_reverse]
  induction ds with
  | nil => rfl
  | cons d rest ih =>
    have hfold : setHash (d :: rest).reverse = 31 * setHash rest.reverse + UInt64.ofNat d := by
      rw [List.reverse_cons, setHash, List.foldl_append]
      rfl
    rw [hfold, UInt64.toNat_add, UInt64.toNat_mul, ih]
    simp only [UInt64.toNat_ofNat, UInt64.toNat_ofNat', digitValue]
    omega

/-! ### Falling digits -/

/-- The digits fall, from `hi` at most, and all of them are above `lo`. -/
def Falling (lo : Nat) : Nat → List Nat → Prop
  | _, [] => True
  | hi, d :: rest => lo < d ∧ d ≤ hi ∧ Falling lo (d - 1) rest

/-- As many digits as asked for, from `hi` on. -/
def highest : (n hi : Nat) → List Nat
  | 0, _ => []
  | n + 1, hi => hi :: highest n (hi - 1)

namespace Falling

variable {lo hi : Nat} {ds : List Nat}

theorem mono {hi' : Nat} (h : Falling lo hi ds) (hle : hi ≤ hi') : Falling lo hi' ds := by
  cases ds with
  | nil => trivial
  | cons d rest => exact ⟨h.1, Nat.le_trans h.2.1 hle, h.2.2⟩

theorem of_pairwise (hfall : ds.Pairwise (· > ·)) (hmem : ∀ d ∈ ds, lo < d ∧ d ≤ hi) :
    Falling lo hi ds := by
  induction ds generalizing hi with
  | nil => trivial
  | cons d rest ih =>
    obtain ⟨hlo, hhi⟩ := hmem d (List.mem_cons_self ..)
    obtain ⟨hless, hrest⟩ := List.pairwise_cons.mp hfall
    refine ⟨hlo, hhi, ih hrest fun e he => ⟨(hmem e (List.mem_cons_of_mem _ he)).1, ?_⟩⟩
    have := hless e he
    omega

/-- Digits that fall are no more than there is room for. -/
theorem add_length_le (h : Falling lo hi ds) (hle : lo ≤ hi) : lo + ds.length ≤ hi := by
  induction ds generalizing hi with
  | nil => exact hle
  | cons d rest ih =>
    obtain ⟨hlo, hhi, hrest⟩ := h
    have := ih hrest (by omega)
    rw [List.length_cons]
    omega

/-- The greatest digit there may be is the last one or not there. -/
theorem cases_top (h : Falling lo (hi + 1) ds) :
    Falling lo hi ds ∨ ∃ rest, ds = (hi + 1) :: rest ∧ Falling lo hi rest := by
  cases ds with
  | nil => exact .inl trivial
  | cons d rest =>
    obtain ⟨hlo, hhi, hrest⟩ := h
    rcases Nat.eq_or_lt_of_le hhi with rfl | hless
    · exact .inr ⟨rest, rfl, hrest⟩
    · exact .inl ⟨hlo, Nat.le_of_lt_succ hless, hrest⟩

/-- A digit divides the digits that fall into those above it and those below it. -/
theorem of_append_cons {a : Nat} {es : List Nat} (h : Falling lo hi (ds ++ a :: es)) :
    Falling a hi ds ∧ lo < a ∧ a ≤ hi ∧ Falling lo (a - 1) es := by
  induction ds generalizing hi with
  | nil => exact ⟨trivial, h⟩
  | cons d rest ih =>
    obtain ⟨hlo, hhi, hrest⟩ := h
    obtain ⟨habove, hbelow, hle, hes⟩ := ih hrest
    exact ⟨⟨by omega, hhi, habove⟩, hbelow, by omega, hes⟩

theorem digitValue_pos (h : Falling lo hi ds) (hne : ds ≠ []) : 0 < digitValue ds := by
  cases ds with
  | nil => exact absurd rfl hne
  | cons d rest =>
    have := h.1
    rw [digitValue]
    omega

/-! ### Bounds -/

theorem digitValue_le {n : Nat} (h : Falling lo hi ds) (hlen : ds.length ≤ n) :
    digitValue ds ≤ digitValue (highest n hi) := by
  induction n generalizing hi ds with
  | zero =>
    rw [List.length_eq_zero_iff.mp (Nat.le_zero.mp hlen)]
    exact Nat.le_refl _
  | succ n ih =>
    cases ds with
    | nil => exact Nat.zero_le _
    | cons d rest =>
      obtain ⟨-, hhi, hrest⟩ := h
      have := ih (hrest.mono (Nat.sub_le_sub_right hhi 1)) (Nat.le_of_succ_le_succ hlen)
      simp only [highest, digitValue]
      omega

theorem le_digitValue (h : Falling lo hi ds) :
    digitValue (highest ds.length (lo + ds.length)) ≤ digitValue ds := by
  induction ds generalizing hi with
  | nil => exact Nat.le_refl _
  | cons d rest ih =>
    obtain ⟨hlo, -, hrest⟩ := h
    have hroom := hrest.add_length_le (by omega)
    have := ih hrest
    simp only [List.length_cons, highest, digitValue, ← Nat.add_assoc, Nat.add_sub_cancel]
    omega

/-! ### Digits that a number tells -/

/-- Digits from 1 on are worth no more than all digits up to the greatest. -/
theorem digitValue_le_all (h : Falling 0 hi ds) : digitValue ds ≤ digitValue (highest hi hi) :=
  h.digitValue_le (by simpa only [Nat.zero_add] using h.add_length_le (Nat.zero_le hi))

/-- Up to 32, digits that fall are known from their number. -/
theorem eq_of_digitValue_eq {es : List Nat} (hds : Falling 0 32 ds) (hes : Falling 0 32 es)
    (h : digitValue ds = digitValue es) : ds = es := by
  induction ds generalizing es with
  | nil =>
    cases es with
    | nil => rfl
    | cons e es =>
      have hpos := hes.digitValue_pos (List.cons_ne_nil _ _)
      rw [← h] at hpos
      exact absurd hpos (Nat.lt_irrefl 0)
  | cons d ds ih =>
    cases es with
    | nil =>
      have hpos := hds.digitValue_pos (List.cons_ne_nil _ _)
      rw [h] at hpos
      exact absurd hpos (Nat.lt_irrefl 0)
    | cons e es =>
      obtain ⟨hd, hd', hds⟩ := hds
      obtain ⟨he, he', hes⟩ := hes
      simp only [digitValue] at h
      -- Of the last digits 1 and 32 only one is the last of several, so they differ in value.
      have hlast : d = e := by
        have hone : d = 1 → digitValue ds ≤ 0 := by
          rintro rfl
          exact hds.digitValue_le_all
        have hone' : e = 1 → digitValue es ≤ 0 := by
          rintro rfl
          exact hes.digitValue_le_all
        omega
      subst hlast
      rw [ih (hds.mono (by omega)) (hes.mono (by omega)) (by omega)]

/-- Up to 33, this holds of two digits or more. The number 33 has the digit 33, but also the
digits 2 and 1. -/
theorem eq_of_digitValue_eq_of_two_le {es : List Nat} (hds : Falling 0 33 ds)
    (hes : Falling 0 33 es) (hlen : 2 ≤ ds.length) (hlen' : 2 ≤ es.length)
    (h : digitValue ds = digitValue es) : ds = es := by
  match ds, es, hlen, hlen' with
  | d :: d' :: ds, e :: e' :: es, _, _ =>
    obtain ⟨hd, hd', hds⟩ := hds
    obtain ⟨he, he', hes⟩ := hes
    have hpos := hds.digitValue_pos (List.cons_ne_nil _ _)
    have hpos' := hes.digitValue_pos (List.cons_ne_nil _ _)
    have hsum : d + 31 * digitValue (d' :: ds) = e + 31 * digitValue (e' :: es) := h
    -- Nothing but 1 comes before 2, and something comes before 33.
    have htwo : d ≤ 2 → digitValue (d' :: ds) ≤ 1 := fun hle =>
      (hds.mono (Nat.sub_le_sub_right hle 1)).digitValue_le_all
    have htwo' : e ≤ 2 → digitValue (e' :: es) ≤ 1 := fun hle =>
      (hes.mono (Nat.sub_le_sub_right hle 1)).digitValue_le_all
    have hlast : d = e := by omega
    subst hlast
    rw [(hds.mono (by omega)).eq_of_digitValue_eq (hes.mono (by omega)) (by omega)]

end Falling

end ArchetypeStore
