import ProviderProtocol.Proofs.Value.Build
/-!
# Assigning attributes

`setAttribute` returns the changed object.  `assign` is the same as a program on a value that it changes in place: the
checks come first, so a call that fails has changed nothing (`run_assign`).  However many calls are made, the value
keeps its type, and each call changes the attribute that it names or nothing (`assignments_are_framed`).
-/
namespace ProviderProtocol.Value

/-! ## One call -/

/-- The checks of a call with `v` at hand, then the change. -/
def assignIn (v : Value) (name : String) (new : Value) : ExceptT ShapeFault (StateM Value) Unit :=
  match v.ty.attributes?.bind (Table.find? name) with
  | none   => throw (.undeclared v.ty name)
  | some t =>
    if t ≠ new.ty then throw (.attribute name t new.ty)
    else match v with
      | .known ty (.map es) => set (Value.known ty (.map (Table.insert name new es)))
      | _                   => throw (.notKnown name)

/-- One attribute of the value at hand is replaced, in place. -/
def assign (name : String) (new : Value) : ExceptT ShapeFault (StateM Value) Unit := do
  assignIn (← get) name new

theorem run_assign (v : Value) (name : String) (new : Value) :
    (assign name new).run.run v =
      match v.setAttribute name new with
      | .ok w    => (.ok (), w)
      | .error e => (.error e, v) := by
  show (assignIn v name new).run.run v = _
  unfold assignIn setAttribute
  cases v.ty.attributes?.bind (Table.find? name) with
  | none   => rfl
  | some t =>
    by_cases ht : t ≠ new.ty
    · simp only [if_pos ht]
      rfl
    · simp only [if_neg ht]
      cases v with
      | null t     => rfl
      | unknown t  => rfl
      | known ty c => cases c <;> rfl

/-- What a call with `held` at hand comes to: its result, and the value after it. -/
structure Assigned (held : Value) (name : String) (new : Value) (r : Except ShapeFault Unit) (next : Value) : Prop where
  ok_iff : r = .ok () ↔ ∃ attrs c, held = known (.object attrs) c ∧ Table.find? name attrs = some new.ty
  replaced : r = .ok () → next.attribute? name = some new
  others : r = .ok () → ∀ other, other ≠ name → next.attribute? other = held.attribute? other
  unchanged : ∀ e, r = .error e → next = held
  ty : next.ty = held.ty

/-- The content of an object is a table of entries. -/
def Entered (v : Value) : Prop := ∀ attrs c, v = known (.object attrs) c → ∃ es, c = .map es

theorem WellFormed.entered {v : Value} (hv : v.WellFormed) : v.Entered := by
  rintro attrs c rfl
  cases hv.shaped with
  | object es => exact ⟨es, rfl⟩

theorem setAttribute_ty {v new w : Value} {name : String} (h : v.setAttribute name new = .ok w) : w.ty = v.ty := by
  obtain ⟨attrs, es, rfl, -, rfl⟩ := setAttribute_eq_ok h
  rfl

theorem setAttribute_isOk_iff {v new : Value} {name : String} (hv : v.Entered) :
    (∃ w, v.setAttribute name new = .ok w) ↔
      ∃ attrs c, v = known (.object attrs) c ∧ Table.find? name attrs = some new.ty := by
  constructor
  · rintro ⟨w, hw⟩
    obtain ⟨attrs, es, rfl, hdeclared, -⟩ := setAttribute_eq_ok hw
    exact ⟨attrs, _, rfl, hdeclared⟩
  · rintro ⟨attrs, c, rfl, hdeclared⟩
    obtain ⟨es, rfl⟩ := hv attrs c rfl
    refine ⟨known (.object attrs) (.map (Table.insert name new es)), ?_⟩
    unfold setAttribute
    simp only [ty, Ty.attributes?, Option.bind_some, hdeclared, ne_eq, not_true_eq_false, if_false]

theorem attribute?_setAttribute {v new w : Value} {name : String} (h : v.setAttribute name new = .ok w)
    (other : String) : w.attribute? other = if name = other then some new else v.attribute? other := by
  obtain ⟨attrs, es, rfl, -, rfl⟩ := setAttribute_eq_ok h
  exact Table.find?_insert name other new es

theorem assigned {held : Value} (hheld : held.Entered) (name : String) (new : Value) :
    Assigned held name new ((assign name new).run.run held).1 ((assign name new).run.run held).2 := by
  have hiff : (∃ w, held.setAttribute name new = .ok w) ↔ _ := setAttribute_isOk_iff hheld
  rw [run_assign]
  cases h : held.setAttribute name new with
  | ok w =>
    exact {
      ok_iff := iff_of_true rfl (hiff.1 ⟨w, h⟩)
      replaced := fun _ => by rw [attribute?_setAttribute h, if_pos rfl]
      others := fun _ other hne => by rw [attribute?_setAttribute h, if_neg hne.symm]
      unchanged := fun e he => by cases he
      ty := setAttribute_ty h }
  | error e =>
    have hfails : ¬ ∃ w, held.setAttribute name new = .ok w := fun ⟨w, hw⟩ => by cases h.symm.trans hw
    exact {
      ok_iff := iff_of_false (fun he => by cases he) fun hc => hfails (hiff.2 hc)
      replaced := fun he => by cases he
      others := fun he => by cases he
      unchanged := fun _ _ => rfl
      ty := rfl }

/-! ## Any number of calls -/

/-- The value after all these calls, whether they fail or not. -/
def assignAll (v : Value) (updates : List (String × Value)) : Value :=
  updates.foldl (fun held u => ((assign u.1 u.2).run.run held).2) v

/-- What an attribute that is replaced does not break is kept, however many calls are made. -/
theorem assignAll_keeps {P : Value → Prop} {v : Value} {updates : List (String × Value)} (hv : P v)
    (hkept : ∀ held w u, u ∈ updates → P held → held.setAttribute u.1 u.2 = .ok w → P w) : P (v.assignAll updates) := by
  refine List.foldlRecOn updates _ hv fun held hheld u hu => ?_
  rw [run_assign]
  cases h : held.setAttribute u.1 u.2 with
  | ok w    => exact hkept held w u hu hheld h
  | error e => exact hheld

theorem assignAll_concat (v : Value) (updates : List (String × Value)) (name : String) (new : Value) :
    v.assignAll (updates ++ [(name, new)]) = ((assign name new).run.run (v.assignAll updates)).2 := by
  rw [assignAll, List.foldl_append]
  rfl

theorem assignAll_entered {v : Value} (hv : v.WellFormed) (updates : List (String × Value)) :
    (v.assignAll updates).Entered := by
  refine assignAll_keeps hv.entered fun held w u _ _ h => ?_
  obtain ⟨attrs, es, -, -, rfl⟩ := setAttribute_eq_ok h
  rintro _ _ he
  cases he
  exact ⟨_, rfl⟩

/-- **Assignments are framed and atomic.**  However many attributes are assigned, the value keeps its type, and it stays
well-formed if the given values are, as all are that can be obtained.  A call succeeds exactly on a known object that
declares the attribute with the type of the given value; then it replaces this attribute and no other, and else it
changes nothing. -/
theorem assignments_are_framed {v : Value} (hv : v.WellFormed) (updates : List (String × Value)) :
    (v.assignAll updates).ty = v.ty ∧
    ((∀ u ∈ updates, u.2.WellFormed) → (v.assignAll updates).WellFormed) ∧
    ∀ before name new after, updates = before ++ (name, new) :: after →
      ∃ r next, (assign name new).run.run (v.assignAll before) = (r, next) ∧
        v.assignAll (before ++ [(name, new)]) = next ∧ Assigned (v.assignAll before) name new r next := by
  refine ⟨?_, fun hgiven => ?_, fun before name new after _ => ?_⟩
  · exact assignAll_keeps (P := fun w => w.ty = v.ty) rfl fun held w u _ hheld h => (setAttribute_ty h).trans hheld
  · exact assignAll_keeps hv fun held w u hu hheld h => setAttribute_wellFormed hheld (hgiven u hu) h
  · exact ⟨_, _, rfl, assignAll_concat v before name new, assigned (assignAll_entered hv before) name new⟩

/-! ### A lamp

The second call gives the wrong type and the third an attribute that a lamp does not have. -/

def lamp : Value :=
  .known (.object [("on", .bool), ("room", .string)]) (.map [("on", .ofBool true), ("room", .ofString "hall")])

def lampUpdates : List (String × Value) :=
  [("room", .unknown .string), ("on", .ofString "yes"), ("size", .null .number)]

theorem assignments_are_framed_lamp :
    lamp.WellFormed ∧ (∀ u ∈ lampUpdates, u.2.WellFormed) ∧ (lamp.assignAll lampUpdates).WellFormed ∧
      ∃ r next, (assign "on" (.ofString "yes")).run.run (lamp.assignAll [("room", .unknown .string)]) = (r, next) ∧
        lamp.assignAll [("room", .unknown .string), ("on", .ofString "yes")] = next ∧
        Assigned (lamp.assignAll [("room", .unknown .string)]) "on" (.ofString "yes") r next := by
  have hlamp : lamp.WellFormed := by decide
  have hgiven : ∀ u ∈ lampUpdates, u.2.WellFormed := by decide
  obtain ⟨-, hwellFormed, hcalls⟩ := assignments_are_framed hlamp lampUpdates
  exact ⟨hlamp, hgiven, hwellFormed hgiven, hcalls [("room", .unknown .string)] "on" _ _ rfl⟩

example : lamp.assignAll lampUpdates =
    .known (.object [("on", .bool), ("room", .string)]) (.map [("on", .ofBool true), ("room", .unknown .string)]) := by
  rfl

end ProviderProtocol.Value
