/-
# Running bounds

A scan along a curve picks, at each place, between the pick at the place before and the value
there. Where a pick is the meet of two values, the scan is the greatest falling curve below the
given one. The order may leave values out that nothing compares with, so that it is reflexive
only on the others; turned around, it gives the least rising curve above the given one.
-/

import Mathlib.Data.List.Forall2
import Mathlib.Tactic

namespace Datamime.Math

variable {α : Type}

/-- A pick is the meet of two values, where `below` orders them. -/
structure PicksMeet (below : α → α → Prop) (pick : α → α → α) : Prop where
  trans : ∀ {a b c}, below a b → below b c → below a c
  ordered : ∀ {a b}, below a b → below a a ∧ below b b
  left : ∀ {a b}, below a a → below b b → below (pick a b) a
  right : ∀ {a b}, below a a → below b b → below (pick a b) b
  greatest : ∀ {a b c}, below c a → below c b → below c (pick a b)
  of_below : ∀ {a b}, below b a → pick a b = b

/-- The values of a curve never rise. -/
def Falling (below : α → α → Prop) (curve : List α) : Prop :=
  curve.Pairwise fun earlier later => below later earlier

/-- One curve lies below another one, place by place. -/
abbrev LiesBelow (below : α → α → Prop) : List α → List α → Prop := List.Forall₂ below

/-- The greatest falling curve below a given one. -/
structure IsGreatestFalling (below : α → α → Prop) (curve bound : List α) : Prop where
  falling : Falling below bound
  lies : LiesBelow below bound curve
  greatest : ∀ other, Falling below other → LiesBelow below other curve →
    LiesBelow below other bound

section

variable {below : α → α → Prop} {pick : α → α → α} {first head value : α} {rest : List α}

/-- What lies below a curve shows that the values of the curve are ordered. -/
theorem LiesBelow.ordered_of_mem (meet : PicksMeet below pick) {bound curve : List α}
    (lies : LiesBelow below bound curve) (isValue : value ∈ curve) : below value value := by
  induction lies with
  | nil => cases isValue
  | cons related _ ih =>
      rcases List.mem_cons.mp isValue with rfl | later
      · exact (meet.ordered related).2
      · exact ih later

theorem liesBelow_scanl (meet : PicksMeet below pick) (start : below first head)
    (ordered : ∀ value ∈ rest, below value value) :
    LiesBelow below (rest.scanl pick first) (head :: rest) := by
  induction rest generalizing first head with
  | nil => exact .cons start .nil
  | cons value rest ih =>
      have isOrdered : below value value := ordered value List.mem_cons_self
      rw [List.scanl_cons]
      apply List.Forall₂.cons start
      apply ih (meet.right (meet.ordered start).1 isOrdered)
      exact fun later isLater => ordered later (List.mem_cons_of_mem value isLater)

theorem below_of_mem_scanl (meet : PicksMeet below pick) (start : below first first)
    (ordered : ∀ value ∈ rest, below value value) (isPick : value ∈ rest.scanl pick first) :
    below value first := by
  induction rest generalizing first with
  | nil =>
      rw [List.scanl_nil, List.mem_singleton] at isPick
      rwa [isPick]
  | cons next rest ih =>
      have lower : below (pick first next) first :=
        meet.left start (ordered next List.mem_cons_self)
      rw [List.scanl_cons] at isPick
      rcases List.mem_cons.mp isPick with rfl | later
      · exact start
      · refine meet.trans (ih (meet.ordered lower).1 ?_ later) lower
        exact fun other isOther => ordered other (List.mem_cons_of_mem next isOther)

theorem falling_scanl (meet : PicksMeet below pick) (start : below first first)
    (ordered : ∀ value ∈ rest, below value value) : Falling below (rest.scanl pick first) := by
  induction rest generalizing first with
  | nil => exact List.pairwise_singleton _ _
  | cons next rest ih =>
      have later : ∀ value ∈ rest, below value value := fun value isValue =>
        ordered value (List.mem_cons_of_mem next isValue)
      have lower : below (pick first next) first :=
        meet.left start (ordered next List.mem_cons_self)
      have lowerOrdered := (meet.ordered lower).1
      rw [Falling, List.scanl_cons, List.pairwise_cons]
      refine ⟨fun value isPick => ?_, ih lowerOrdered later⟩
      exact meet.trans (below_of_mem_scanl meet lowerOrdered later isPick) lower

/-- A falling curve that starts below the start of the scan stays below the scan. -/
theorem liesBelow_scanl_of_falling (meet : PicksMeet below pick) {least : α} {others : List α}
    (falling : Falling below (least :: others)) (start : below least first)
    (lies : LiesBelow below others rest) :
    LiesBelow below (least :: others) (rest.scanl pick first) := by
  induction lies generalizing least first with
  | nil => exact .cons start .nil
  | @cons other value others rest related _ ih =>
      have steps : below other least := List.rel_of_pairwise_cons falling List.mem_cons_self
      rw [List.scanl_cons]
      apply List.Forall₂.cons start
      exact ih (List.Pairwise.of_cons falling)
        (meet.greatest (meet.trans steps start) related)

/-- The scan is the greatest falling curve below a curve of ordered values. -/
theorem isGreatestFalling_scanl (meet : PicksMeet below pick)
    (ordered : ∀ value ∈ first :: rest, below value value) :
    IsGreatestFalling below (first :: rest) (rest.scanl pick first) := by
  have start : below first first := ordered first List.mem_cons_self
  have later : ∀ value ∈ rest, below value value := fun value isValue =>
    ordered value (List.mem_cons_of_mem first isValue)
  refine ⟨falling_scanl meet start later, liesBelow_scanl meet start later, ?_⟩
  intro other falling lies
  cases lies with
  | cons related lies => exact liesBelow_scanl_of_falling meet falling related lies

/-- A curve that lies below another one stays below it. -/
theorem LiesBelow.scanl (meet : PicksMeet below pick) {first' : α} {rest' : List α}
    (start : below first first') (lies : LiesBelow below rest rest') :
    LiesBelow below (rest.scanl pick first) (rest'.scanl pick first') := by
  induction lies generalizing first first' with
  | nil => exact .cons start .nil
  | @cons value value' rest rest' related _ ih =>
      have startOrdered := (meet.ordered start).1
      have valueOrdered := (meet.ordered related).1
      rw [List.scanl_cons, List.scanl_cons]
      apply List.Forall₂.cons start
      apply ih
      exact meet.greatest (meet.trans (meet.left startOrdered valueOrdered) start)
        (meet.trans (meet.right startOrdered valueOrdered) related)

/-- A falling curve is left as it is. -/
theorem Falling.scanl_eq (meet : PicksMeet below pick) (falling : Falling below (first :: rest)) :
    rest.scanl pick first = first :: rest := by
  induction rest generalizing first with
  | nil => rfl
  | cons value rest ih =>
      have steps : below value first := List.rel_of_pairwise_cons falling List.mem_cons_self
      rw [List.scanl_cons, meet.of_below steps, ih (List.Pairwise.of_cons falling)]

end

/-- A scan that is scanned again stays as it is, if picking again changes nothing. -/
theorem scanl_tail_scanl {pick : α → α → α} (settles : ∀ a b, pick a (pick a b) = pick a b)
    (first : α) (rest : List α) :
    (rest.scanl pick first).tail.scanl pick first = rest.scanl pick first := by
  induction rest generalizing first with
  | nil => rfl
  | cons value rest ih =>
      have again := ih (pick first value)
      cases rest with
      | nil => simp [settles]
      | cons next rest =>
          rw [List.scanl_cons, List.tail_cons, List.scanl_cons, List.scanl_cons, settles]
          rw [List.scanl_cons, List.tail_cons] at again
          rw [again]

/-- A map from one pick to another takes scans to scans. -/
theorem map_scanl {β : Type} {pick : α → α → α} {pick' : β → β → β} {f : α → β}
    (commutes : ∀ a b, f (pick a b) = pick' (f a) (f b)) (first : α) (rest : List α) :
    (rest.scanl pick first).map f = (rest.map f).scanl pick' (f first) := by
  induction rest generalizing first with
  | nil => rfl
  | cons value rest ih =>
      rw [List.scanl_cons, List.map_cons, ih, commutes, List.map_cons, List.scanl_cons]

end Datamime.Math
