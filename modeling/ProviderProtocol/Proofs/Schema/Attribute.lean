import ProviderProtocol.Schema.Basic
/-!
# The attribute at a path

Attributes have nothing below them: of two paths that address attributes neither is a proper prefix of the other
(`attributeAt?_eq_none_of_append`).  A path that addresses an attribute ends in a block, its owner, in which the last
name is looked up (`Block.owner?`).
-/
namespace ProviderProtocol

theorem Attribute.isComputed_iff {a : Attribute} :
    a.isComputed = true ↔ a.mode = .computed ∨ a.mode = .optionalComputed := by
  unfold Attribute.isComputed
  rw [Bool.or_eq_true, beq_iff_eq, beq_iff_eq]

namespace Block

theorem attributeAt?_append {b : Block} {p r : Path} {a : Attribute} (h : b.attributeAt? p = some a) (hr : r ≠ []) :
    b.attributeAt? (p ++ r) = none := by
  fun_induction attributeAt? b p with
  | case1 b name steps a' hname hempty =>
    have hne : (steps ++ r).isEmpty = false := by simpa using fun _ => hr
    rw [List.cons_append, attributeAt?, hname, hne]
    rfl
  | case4 b name steps hname nesting inner hblock hmode ih =>
    rw [List.cons_append, attributeAt?, hname, hblock]
    exact (if_pos hmode).trans (ih h)
  | case5 b name hname nesting inner hblock hmode step rest hsel ih =>
    rw [List.cons_append, attributeAt?, hname, hblock]
    exact (if_neg hmode).trans ((if_pos hsel).trans (ih h))
  | case2 => cases h
  | case3 => cases h
  | case6 => cases h
  | case7 => cases h
  | case8 => cases h

/-- Steps to items are skipped whichever item they lead to. -/
theorem attributeAt?_element (x y : Value) (r : Path) : ∀ (b : Block) (p : Path),
    b.attributeAt? (p ++ .element x :: r) = b.attributeAt? (p ++ .element y :: r)
  | _, []                   => rfl
  | b, .attribute name :: p => by
    rw [List.cons_append, List.cons_append, attributeAt?, attributeAt?]
    cases Table.find? name b.attributes with
    | some a => cases p <;> rfl
    | none   =>
      cases Table.find? name b.blocks with
      | none       => rfl
      | some found =>
        obtain ⟨nesting, inner⟩ := found
        dsimp only
        by_cases hmode : nesting.mode = .single ∨ nesting.mode = .group
        · rw [if_pos hmode, if_pos hmode]
          exact attributeAt?_element x y r inner p
        · rw [if_neg hmode, if_neg hmode]
          cases p with
          | nil         =>
            have hselects : selects nesting.mode (.element x) = selects nesting.mode (.element y) := by
              cases nesting.mode <;> rfl
            rw [List.nil_append, List.nil_append]
            dsimp only
            rw [hselects]
          | cons step p =>
            have hinner := attributeAt?_element x y r inner p
            rw [List.cons_append, List.cons_append]
            dsimp only
            rw [hinner]
  | _, .key _ :: _          => rfl
  | _, .index _ :: _        => rfl
  | _, .element _ :: _      => rfl

/-- The last name of a path and the block in which it is looked up. -/
def owner? : Block → Path → Option (String × Block)
  | b, [.attribute name]        => some (name, b)
  | b, .attribute name :: steps =>
    match Table.find? name b.blocks with
    | none                  => none
    | some (nesting, inner) =>
      if nesting.mode = .single ∨ nesting.mode = .group then inner.owner? steps
      else match steps with
        | step :: rest => if selects nesting.mode step then inner.owner? rest else none
        | []           => none
  | _, _ => none

theorem owner?_of_attributeAt? {b : Block} {p : Path} {a : Attribute} (h : b.attributeAt? p = some a) :
    ∃ name owner, b.owner? p = some (name, owner) ∧ Table.find? name owner.attributes = some a := by
  fun_induction attributeAt? b p with
  | case1 b name steps a' hname hempty =>
    cases h
    obtain rfl := List.isEmpty_iff.1 hempty
    exact ⟨name, b, rfl, hname⟩
  | case4 b name steps hname nesting inner hblock hmode ih =>
    obtain ⟨last, owner, ho, ha⟩ := ih h
    refine ⟨last, owner, ?_, ha⟩
    cases steps with
    | nil             => cases ho
    | cons step steps =>
      rw [owner?, hblock]
      · exact (if_pos hmode).trans ho
      · exact nofun
  | case5 b name hname nesting inner hblock hmode step rest hsel ih =>
    obtain ⟨last, owner, ho, ha⟩ := ih h
    refine ⟨last, owner, ?_, ha⟩
    rw [owner?, hblock]
    · exact (if_neg hmode).trans ((if_pos hsel).trans ho)
    · exact nofun
  | case2 => cases h
  | case3 => cases h
  | case6 => cases h
  | case7 => cases h
  | case8 => cases h

end Block

namespace Schema

theorem attributeAt?_eq_none_of_append {s : Schema} {p r : Path} {a : Attribute} (h : s.attributeAt? (p ++ r) = some a)
    (hr : r ≠ []) : s.attributeAt? p = none := by
  cases hp : s.attributeAt? p with
  | none   => rfl
  | some b =>
    have hnone : s.attributeAt? (p ++ r) = none := Block.attributeAt?_append hp hr
    rw [h] at hnone
    cases hnone

end Schema

end ProviderProtocol
