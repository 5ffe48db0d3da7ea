import Mathlib.Data.List.Forall2
/-!
# The first of several faults

A computation that stops at its first fault gives that fault, or a value if nothing is at fault.
`firstFaultOr` is such a result with all the faults listed, those included that the computation
never gets to. Sequences and traversals of such results are again of this form, with the faults
in the order of the steps.
-/

namespace Schemata

variable {ε α β : Type}

/-- The first of the faults, or the value if there are none. -/
def firstFaultOr (faults : List ε) (a : α) : Except ε α :=
  match faults with
  | [] => .ok a
  | e :: _ => .error e

/-- The fault of a result, if it is one. -/
def fault? : Except ε α → Option ε
  | .ok _ => none
  | .error e => some e

@[simp]
theorem fault?_ok (a : α) : fault? (.ok a : Except ε α) = none := rfl

@[simp]
theorem fault?_error (e : ε) : fault? (.error e : Except ε α) = some e := rfl

theorem fault?_eq_none_iff {x : Except ε α} : fault? x = none ↔ ∃ a, x = .ok a := by
  cases x <;> simp

theorem fault?_eq_some_iff {x : Except ε α} {e : ε} : fault? x = some e ↔ x = .error e := by
  cases x <;> simp

theorem firstFaultOr_eq_ok_iff {faults : List ε} {a b : α} :
    firstFaultOr faults a = .ok b ↔ faults = [] ∧ a = b := by
  cases faults <;> simp [firstFaultOr]

theorem firstFaultOr_eq_error_iff {faults : List ε} {a : α} {e : ε} :
    firstFaultOr faults a = .error e ↔ faults.head? = some e := by
  cases faults <;> simp [firstFaultOr]

@[simp]
theorem ok_bind (a : α) (f : α → Except ε β) : (.ok a >>= f) = f a := rfl

@[simp]
theorem pure_eq_ok (a : α) : (pure a : Except ε α) = .ok a := rfl

/-- A first step and what follows give a value only if both do. -/
theorem bind_eq_ok {x : Except ε α} {f : α → Except ε β} {b : β} (h : (x >>= f) = .ok b) :
    ∃ a, x = .ok a ∧ f a = .ok b := by
  cases x with
  | error e => cases h
  | ok a => exact ⟨a, rfl, h⟩

theorem map_eq_ok {x : Except ε α} {f : α → β} {b : β} (h : x.map f = .ok b) :
    ∃ a, x = .ok a ∧ f a = b := by
  cases x with
  | error e => cases h
  | ok a =>
    cases h
    exact ⟨a, rfl, rfl⟩

/-- Errors may change their form on the way; what is there is there. -/
theorem mapError_eq_ok_iff {ε' : Type} {f : ε → ε'} {r : Except ε α} {a : α} :
    r.mapError f = .ok a ↔ r = .ok a := by
  cases r with
  | error e => exact ⟨nofun, nofun⟩
  | ok b =>
    constructor
    · rintro ⟨⟩
      rfl
    · rintro ⟨⟩
      rfl

/-- A result without a value is at fault alone. -/
theorem eq_firstFaultOr_unit (x : Except ε Unit) : x = firstFaultOr (fault? x).toList () := by
  cases x <;> rfl

theorem firstFaultOr_map (faults : List ε) (a : α) (f : α → β) :
    (firstFaultOr faults a).map f = firstFaultOr faults (f a) := by
  cases faults <;> rfl

/-- Steps one after the other have the faults of the first in front of those of the second. The
value of a first step that is at fault does not matter. -/
theorem firstFaultOr_bind (faults : List ε) (a : α) (f : α → Except ε β) (more : List ε) (b : β)
    (hf : f a = firstFaultOr more b) :
    (firstFaultOr faults a >>= f) = firstFaultOr (faults ++ more) b := by
  cases faults with
  | nil => exact hf
  | cons e es => rfl

/-- A traversal gives the first fault of its elements, or else the value of every one. -/
theorem mapM_eq_firstFaultOr (f : α → Except ε β) (as : List α) :
    as.mapM f =
      firstFaultOr (as.filterMap fun a => fault? (f a)) (as.filterMap fun a => (f a).toOption) := by
  induction as with
  | nil => rfl
  | cons a as ih =>
    rw [List.mapM_cons, ih]
    cases h : f a with
    | error e => simp only [List.filterMap_cons, h]; rfl
    | ok b =>
      simp only [List.filterMap_cons, h, fault?_ok, Except.toOption]
      exact firstFaultOr_map _ _ _

/-- The values of a traversal are those of the elements in their places. -/
theorem mapM_eq_ok_iff {f : α → Except ε β} {as : List α} {bs : List β} :
    as.mapM f = .ok bs ↔ List.Forall₂ (fun a b => f a = .ok b) as bs := by
  induction as generalizing bs with
  | nil => rw [List.mapM_nil, pure_eq_ok, Except.ok.injEq, List.forall₂_nil_left_iff, eq_comm]
  | cons a as ih =>
    rw [List.mapM_cons, List.forall₂_cons_left_iff]
    constructor
    · intro h
      obtain ⟨b, hb, hrest⟩ := bind_eq_ok h
      obtain ⟨bs, hbs, hall⟩ := bind_eq_ok hrest
      cases hall
      exact ⟨b, bs, hb, ih.mp hbs, rfl⟩
    · rintro ⟨b, bs, hb, hbs, rfl⟩
      rw [hb, ok_bind, ih.mpr hbs, ok_bind, pure_eq_ok]

/-- A traversal fails as the first element does that fails. -/
theorem mapM_eq_error_iff {f : α → Except ε β} {as : List α} {e : ε} :
    as.mapM f = .error e ↔ ∃ before a after,
      as = before ++ a :: after ∧ f a = .error e ∧ ∀ b ∈ before, ∃ c, f b = .ok c := by
  rw [mapM_eq_firstFaultOr, firstFaultOr_eq_error_iff, List.head?_filterMap,
    List.findSome?_eq_some_iff]
  simp only [fault?_eq_some_iff, fault?_eq_none_iff]

theorem forM_eq_firstFaultOr (f : α → Except ε Unit) (as : List α) :
    as.forM f = firstFaultOr (as.filterMap fun a => fault? (f a)) () := by
  induction as with
  | nil => rfl
  | cons a as ih =>
    have hstep : (a :: as).forM f = (f a >>= fun _ => as.forM f) := rfl
    rw [hstep, ih, eq_firstFaultOr_unit (f a)]
    rw [firstFaultOr_bind _ _ _ _ _ rfl, List.filterMap_cons]
    cases h : f a <;> rfl

/-- What is made of items one by one is made back into them. -/
theorem mapM_map_eq_ok {f : α → Except ε β} {g : β → α} {bs : List β}
    (h : ∀ b ∈ bs, f (g b) = .ok b) : (bs.map g).mapM f = .ok bs := by
  induction bs with
  | nil => rfl
  | cons b bs ih =>
    rw [List.map_cons, List.mapM_cons, h b List.mem_cons_self,
      ih fun c hc => h c (List.mem_cons_of_mem b hc)]
    rfl

/-- A loop is through once each of its steps goes on. -/
theorem forIn_eq_ok {as : List α} {check : α → Except ε (ForInStep PUnit)}
    (h : ∀ a ∈ as, check a = .ok (.yield PUnit.unit)) :
    forIn as PUnit.unit (fun a _ => check a) = .ok PUnit.unit := by
  induction as with
  | nil => rfl
  | cons a as ih =>
    rw [List.forIn_cons, h a List.mem_cons_self]
    exact ih fun b hb => h b (List.mem_cons_of_mem a hb)

end Schemata
