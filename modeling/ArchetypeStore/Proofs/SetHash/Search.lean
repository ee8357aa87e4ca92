import ArchetypeStore.Proofs.SetHash.Digits

/-! # A search for sets with one key

  May a set of at most 12 indices up to 33 have the key of a larger set? Keys are numbers
  modulo `2 ^ 63`, which is no power of 31, so the digits do not settle this one by one.
  But the larger set may be cut below its 12 greatest indices. What is cut off has at most
  21 indices, the greatest of which is `a`, say. It fixes a number `g` such that

    `digitValue (greatest 12) + g = digitValue (smaller set) + 2 * 31 ^ 12`

  without any modulus, and the digits of this equation are settled from the last one on. For
  most cuts `g` is too large already.

  The functions of this module try all cuts. They are there to be run by the kernel and use
  the operations on numbers that it has. What matters is that they miss nothing: a search
  that ends without a hit is proof that there is none.
-/

namespace ArchetypeStore.SetSearch

/-! ### Two rows of digits -/

def least (a b : Nat) : Nat := a.sub (a.sub b)

/-- The last digits are `b` and `b - d`, the next sum is one greater. -/
def down (rest : Nat → Nat → Nat → Nat → Bool) (t d b g : Nat) : Bool :=
  t.ble b && (d.add 1).ble b && rest (t.sub 1) (b.sub 1) ((b.sub d).sub 1) ((g.div 31).add 1)

/-- The last digits are `b` and `b + r`. -/
def up (rest : Nat → Nat → Nat → Nat → Bool) (t r b g : Nat) : Bool :=
  t.ble b && rest (t.sub 1) (b.sub 1) ((b.add r).sub 1) (g.div 31)

/-- The second row has no more digits. -/
def alone (rest : Nat → Nat → Nat → Nat → Bool) (t d hb g : Nat) : Bool :=
  t.ble d && d.ble hb && rest (t.sub 1) (d.sub 1) 0 ((g.div 31).add 1)

/-- May there be `n` digits that fall from `hb`, the last of them at least `t`, and at most
`n` digits that fall from `hs`, such that the first number with `g` is the second one with
`2 * 31 ^ n`? The last digits differ by what `g` says; the greatest that do are tried, since
they leave most for the rest. -/
def meets : (n t hb hs g : Nat) → Bool
  | 0, _, _, _, g => Nat.beq g 2
  | n + 1, t, hb, hs, g =>
    down (meets n) t (Nat.sub 31 (g.mod 31)) (least hb (hs.add (Nat.sub 31 (g.mod 31)))) g ||
      up (meets n) t (g.mod 31) (least hb (hs.sub (g.mod 31))) g ||
      alone (meets n) t (Nat.sub 31 (g.mod 31)) hb g

theorem least_eq_min (a b : Nat) : least a b = min a b := by
  simp only [least, Nat.sub_eq]
  omega

theorem meets_succ (n t hb hs g : Nat) : meets (n + 1) t hb hs g =
    (down (meets n) t (31 - g % 31) (min hb (hs + (31 - g % 31))) g ||
      up (meets n) t (g % 31) (min hb (hs - g % 31)) g ||
        alone (meets n) t (31 - g % 31) hb g) := by
  rw [← least_eq_min, ← least_eq_min]
  rfl

variable {rest : Nat → Nat → Nat → Nat → Bool} {t d r b hb g : Nat}

theorem down_eq_true (hb : t ≤ b) (hd : d < b)
    (h : rest (t - 1) (b - 1) (b - d - 1) (g / 31 + 1) = true) : down rest t d b g = true := by
  simp only [down, Bool.and_eq_true, Nat.ble_eq]
  exact ⟨⟨hb, hd⟩, h⟩

theorem up_eq_true (hb : t ≤ b) (h : rest (t - 1) (b - 1) (b + r - 1) (g / 31) = true) :
    up rest t r b g = true := by
  simp only [up, Bool.and_eq_true, Nat.ble_eq]
  exact ⟨hb, h⟩

theorem alone_eq_true (hd : t ≤ d) (hle : d ≤ hb)
    (h : rest (t - 1) (d - 1) 0 (g / 31 + 1) = true) : alone rest t d hb g = true := by
  simp only [alone, Bool.and_eq_true, Nat.ble_eq]
  exact ⟨⟨hd, hle⟩, h⟩

/-- The search finds what there is. The bounds on `hb` and `hs` say that two last digits
cannot be so far apart that a carry of more than one digit makes up for it. -/
theorem meets_of_sum {lo hs : Nat} {ds es : List Nat} (hds : Falling lo hb ds)
    (hes : Falling 0 hs es) (hlen : es.length ≤ ds.length)
    (hsum : digitValue ds + g = digitValue es + 2 * 31 ^ ds.length)
    (hhb : hb ≤ 31 + es.length) (hhs : hs ≤ lo + ds.length + 30) :
    meets ds.length (lo + ds.length) hb hs g = true := by
  induction ds generalizing es hb hs g with
  | nil =>
    rw [List.length_eq_zero_iff.mp (Nat.le_zero.mp hlen)] at hsum
    simp only [digitValue, List.length_nil] at hsum
    exact Nat.beq_eq.mpr (by omega)
  | cons d ds ih =>
    obtain ⟨hlo, hd, hds⟩ := hds
    have hroom := hds.add_length_le (by omega)
    simp only [List.length_cons, digitValue, Nat.pow_succ] at hlen hsum hhs ⊢
    rw [← Nat.add_assoc, meets_succ, Bool.or_eq_true, Bool.or_eq_true]
    have hdiv := Nat.div_add_mod g 31
    have hmod := Nat.mod_lt g (show 0 < 31 by decide)
    cases es with
    | nil =>
      have hnil : Falling 0 0 [] := trivial
      simp only [digitValue, List.length_nil] at hsum hhb
      have hlast : d = 31 - g % 31 := by omega
      subst hlast
      refine .inr (alone_eq_true (by omega) hd (ih hds hnil (Nat.zero_le _) ?_ ?_ ?_))
      · rw [digitValue]
        omega
      · rw [List.length_nil]
        omega
      · omega
    | cons e es =>
      obtain ⟨he, he', hes⟩ := hes
      have hroom' := hes.add_length_le (Nat.zero_le _)
      simp only [List.length_cons, digitValue] at hlen hsum hhb
      -- The bounds leave two of the carries that the last digits may have.
      have hcarry : d + g % 31 = e ∨ d + g % 31 = e + 31 := by omega
      rcases hcarry with hup | hdown
      · refine .inl (.inr (up_eq_true (by omega) ?_))
        exact ih (hds.mono (by omega)) (hes.mono (by omega)) (by omega) (by omega) (by omega)
          (by omega)
      · refine .inl (.inl (down_eq_true (by omega) (by omega) ?_))
        exact ih (hds.mono (by omega)) (hes.mono (by omega)) (by omega) (by omega) (by omega)
          (by omega)

/-! ### All cuts

  The numbers that are written out: 787662783788549761 is `31 ^ 12`, 578494555649145990 is
  what 12 digits up to 33 are worth at most, and 26255426126284992 is what is added to their
  worth when each of them is greater by one. -/

/-- Hand on a number once it is computed, not the term that it is the value of. -/
def given : Nat → (Nat → Bool) → Bool
  | 0, f => f 0
  | n + 1, f => f (n + 1)

theorem given_eq (n : Nat) (f : Nat → Bool) : given n f = f n := by
  cases n <;> rfl

/-- The test of `h + w * digitValue ds` for all digits that fall from 3. -/
def everyOfThree (p : Nat → Bool) (h w : Nat) : Bool :=
  p h && p (h.add w) && p (h.add (w.mul 2)) && p (h.add (w.mul 33)) && p (h.add (w.mul 3)) &&
    p (h.add (w.mul 34)) && p (h.add (w.mul 65)) && p (h.add (w.mul 1026))

/-- The test of `h + w * digitValue ds` for all digits that fall from `n + 3`. -/
def every (p : Nat → Bool) : (n h w : Nat) → Bool
  | 0, h, w => everyOfThree p h w
  | n + 1, h, w =>
    (given (h.add (w.mul (n.add 4))) fun h' => every p n h' (w.mul 31)) && every p n h w

/-- The numbers with digits that fall from `n`. -/
def values : (n : Nat) → List Nat
  | 0 => [0]
  | n + 1 => values n ++ (values n).map fun v => n + 1 + 31 * v

theorem digitValue_mem_values {n : Nat} {ds : List Nat} (h : Falling 0 n ds) :
    digitValue ds ∈ values n := by
  induction n generalizing ds with
  | zero =>
    cases ds with
    | nil => exact List.mem_singleton.mpr rfl
    | cons d rest => exact absurd h.1 (Nat.not_lt.mpr h.2.1)
  | succ n ih =>
    rcases h.cases_top with h | ⟨rest, rfl, hrest⟩
    · exact List.mem_append_left _ (ih h)
    · exact List.mem_append_right _ (List.mem_map.mpr ⟨_, ih hrest, rfl⟩)

theorem everyOfThree_spec {p : Nat → Bool} {h w : Nat} (hall : everyOfThree p h w = true)
    {ds : List Nat} (hds : Falling 0 3 ds) : p (h + w * digitValue ds) = true := by
  have hvalues : ∀ v ∈ values 3, p (h + w * v) = true := by
    simp only [everyOfThree, Bool.and_eq_true, Nat.add_eq, Nat.mul_eq] at hall
    simp [values, hall]
  exact hvalues _ (digitValue_mem_values hds)

theorem every_spec {p : Nat → Bool} {n h w : Nat} (hall : every p n h w = true)
    {ds : List Nat} (hds : Falling 0 (n + 3) ds) : p (h + w * digitValue ds) = true := by
  induction n generalizing h w ds with
  | zero => exact everyOfThree_spec hall hds
  | succ n ih =>
    simp only [every, Bool.and_eq_true, given_eq, Nat.add_eq, Nat.mul_eq] at hall
    rcases Falling.cases_top (show Falling 0 (n + 3 + 1) ds by rwa [Nat.add_right_comm]) with
      hds | ⟨rest, rfl, hrest⟩
    · exact ih hall.2 hds
    · have htop := ih hall.1 hrest
      rwa [Nat.add_assoc, Nat.mul_assoc, ← Nat.mul_add] at htop

/-- The number is out of the range of a sum, or the search finds no sum for it. The number
added is `2 * 31 ^ 12`, less what 12 digits may be worth. -/
def refutes (t bound y : Nat) : Bool :=
  bound.ble y || !meets 12 t 33 33 (y.add 996831011927953532)

/-- The sum that the digits cut off lead to is below this, if `a` is the greatest of them:
the 12 digits above `a` are worth something. -/
def limit (a : Nat) : Nat := 578494555649145991 + (21 - a) * 26255426126284992

/-- The sum that the digits cut off lead to, modulo `2 ^ 63`, with what 12 digits may be
worth added. -/
def offset (cut : List Nat) : Nat :=
  (578494555649145990 + 787662783788549761 * digitValue cut) % 9223372036854775808

/-- No cut that has the greatest digits `a` and `ds`, and others that fall from `n`, leads to
sets with one key. -/
def Clear (a : Nat) (ds : List Nat) (n : Nat) : Prop :=
  ∀ rest, Falling 0 n rest → refutes (a + 12) (limit a) (offset (a :: (ds ++ rest))) = true

/-- All these cuts are tried. -/
def tryAll (a : Nat) (ds : List Nat) (n : Nat) : Bool :=
  given (a + 12) fun t =>
  given (limit a) fun bound =>
  given (578494555649145990 + 787662783788549761 * digitValue (a :: ds)) fun h =>
  given (787662783788549761 * 31 ^ (ds.length + 1)) fun w =>
  every (fun y => refutes t bound (y.mod 9223372036854775808)) (n - 3) h w

namespace Clear

variable {a n : Nat} {ds : List Nat}

/-- A cut has the greatest digit that is left, or it does not. Eleven digits or less are
better tried at once. -/
theorem divide (hwith : Clear a (ds ++ [n + 12]) (n + 11)) (hwithout : Clear a ds (n + 11)) :
    Clear a ds (n + 12) := by
  intro rest hrest
  rcases hrest.cases_top with hless | ⟨others, rfl, hothers⟩
  · exact hwithout rest hless
  · have := hwith others hothers
    rwa [List.append_assoc] at this

theorem of_tryAll (hall : tryAll a ds n = true) : Clear a ds n := by
  intro rest hrest
  simp only [tryAll, given_eq] at hall
  have hcut := every_spec hall (hrest.mono (by omega))
  have hvalue : digitValue (a :: (ds ++ rest)) =
      digitValue (a :: ds) + 31 ^ (ds.length + 1) * digitValue rest :=
    digitValue_append (a :: ds) rest
  rwa [offset, hvalue, Nat.mul_add, ← Nat.add_assoc, ← Nat.mul_assoc]

end Clear

end ArchetypeStore.SetSearch
