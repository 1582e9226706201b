import ProviderProtocol.Json.Record
import ProviderProtocol.Proofs.Json.Value
/-!
# Records that are written

A record is written as the object of those of its fields that are present (`present`).  Read from the document of that
object, every field is found as it was written, and an absent one is found absent (`fields?_present`).
-/
namespace ProviderProtocol.Json

/-- The members of an object for the fields that are present. -/
def present (fields : List (String × Option Json)) : List (String × Json) :=
  fields.filterMap fun f => f.2.map fun j => (f.1, j)

/-- The members of the document of an object. -/
def memberDocuments (ms : List (String × Json)) : List (String × Document) := ms.map fun m => (m.1, m.2.document)

/-! ## Members that are present -/

theorem mem_present {fields : List (String × Option Json)} {m : String × Json} :
    m ∈ present fields ↔ (m.1, some m.2) ∈ fields := by
  obtain ⟨name, j⟩ := m
  unfold present
  rw [List.mem_filterMap]
  constructor
  · rintro ⟨⟨k, field⟩, hf, he⟩
    obtain ⟨i, rfl, he⟩ := Option.map_eq_some_iff.1 he
    cases he
    exact hf
  · exact fun hf => ⟨(name, some j), hf, rfl⟩

theorem mem_names_present {key : String} {fields : List (String × Option Json)}
    (h : key ∈ Table.names (present fields)) : key ∈ Table.names fields := by
  obtain ⟨m, hm, rfl⟩ := List.mem_map.1 h
  exact Table.mem_names (mem_present.1 hm)

theorem nodup_names_present : ∀ {fields : List (String × Option Json)}, (Table.names fields).Nodup →
    (Table.names (present fields)).Nodup
  | [], _                       => List.nodup_nil
  | (name, none) :: fields, h   => by
    have hfields := nodup_names_present (List.nodup_cons.1 h).2
    exact hfields
  | (name, some _) :: fields, h => by
    obtain ⟨hname, hfields⟩ := List.nodup_cons.1 h
    exact List.nodup_cons.2 ⟨fun hm => hname (mem_names_present hm), nodup_names_present hfields⟩

theorem find?_present (key : String) : ∀ {fields : List (String × Option Json)}, (Table.names fields).Nodup →
    Table.find? key (present fields) = (Table.find? key fields).join
  | [], _                       => rfl
  | (name, none) :: fields, h   => by
    obtain ⟨hname, hfields⟩ := List.nodup_cons.1 h
    show Table.find? key (present fields) = _
    rw [find?_present key hfields, Table.find?]
    split
    · rename_i hkey
      rw [Table.find?_eq_none_iff.2 (hkey ▸ hname)]
      rfl
    · rfl
  | (name, some j) :: fields, h => by
    show Table.find? key ((name, j) :: present fields) = _
    rw [Table.find?, Table.find?]
    split
    · rfl
    · exact find?_present key (List.nodup_cons.1 h).2

theorem membersIntegral_iff : ∀ {ms : List (String × Json)}, MembersIntegral ms ↔ ∀ m ∈ ms, m.2.Integral
  | []           => by simp [MembersIntegral]
  | (_, j) :: ms => by rw [MembersIntegral, membersIntegral_iff, List.forall_mem_cons]

theorem membersIntegral_append {ms more : List (String × Json)} :
    MembersIntegral (ms ++ more) ↔ MembersIntegral ms ∧ MembersIntegral more := by
  rw [membersIntegral_iff, membersIntegral_iff, membersIntegral_iff, List.forall_mem_append]

theorem depth_lt_object {ms : List (String × Json)} {m : String × Json} (h : m ∈ ms) :
    m.2.depth < (object ms).depth :=
  Nat.lt_succ_of_le (membersDepth_le_iff.1 (Nat.le_refl _) m h)

theorem depth_lt_present {fields : List (String × Option Json)} {name : String} {j : Json}
    (h : (name, some j) ∈ fields) : j.depth < (object (present fields)).depth :=
  depth_lt_object (m := (name, j)) (mem_present.2 h)

theorem depth_present_le {fields more : List (String × Option Json)} (h : fields ⊆ more) :
    (object (present fields)).depth ≤ (object (present more)).depth :=
  Nat.succ_le_succ (membersDepth_le_iff.2 fun _ hm => Nat.le_of_lt_succ (depth_lt_present (h (mem_present.1 hm))))

/-! ## Reading fields -/

theorem named?_documentMembers : ∀ ms : List (String × Json),
    Document.named? (documentMembers ms) = some (memberDocuments ms)
  | []           => rfl
  | (_, _) :: ms => by
    rw [documentMembers, Document.named?, named?_documentMembers ms]
    rfl

theorem members?_object (ms : List (String × Json)) : (object ms).document.members? = some (memberDocuments ms) :=
  named?_documentMembers ms

theorem filter_eq_of_nodup (name : String) : ∀ {ms : List (String × α)}, (Table.names ms).Nodup →
    ms.filter (·.1 == name) = ((Table.find? name ms).map fun a => (name, a)).toList
  | [], _           => rfl
  | (k, a) :: ms, h => by
    obtain ⟨hk, hms⟩ := List.nodup_cons.1 h
    rw [List.filter_cons, filter_eq_of_nodup name hms, Table.find?]
    by_cases hname : k = name
    · subst hname
      rw [if_pos (beq_self_eq_true k), if_pos rfl, Table.find?_eq_none_iff.2 hk]
      rfl
    · rw [if_neg (mt beq_iff_eq.1 hname), if_neg hname]

theorem field?_of_nodup {ms : List (String × Document)} (h : (Table.names ms).Nodup) (name : String) :
    Document.field? ms name = some (Table.find? name ms) := by
  unfold Document.field?
  rw [filter_eq_of_nodup name h]
  cases Table.find? name ms <;> rfl

section

variable {fields : List (String × Option Json)} (h : (Table.names fields).Nodup)
include h

theorem field?_present (name : String) :
    Document.field? (memberDocuments (present fields)) name = some ((Table.find? name fields).join.map document) := by
  have hnodup : (Table.names (memberDocuments (present fields))).Nodup :=
    (Table.names_map (fun m : String × Json => m.2.document) _).symm ▸ nodup_names_present h
  rw [field?_of_nodup hnodup, ← find?_present name h]
  exact congrArg some (Table.find?_map (fun m : String × Json => m.2.document) name (present fields))

/-- **Each field is found as it was written.** -/
theorem fields?_present : ∀ names : List String, Document.fields? (memberDocuments (present fields)) names =
    some (names.map fun name => (Table.find? name fields).join.map document)
  | []            => rfl
  | name :: names => by rw [Document.fields?, field?_present h, fields?_present names, List.map_cons]

theorem record?_present (names : List String) :
    (object (present fields)).document.record? names =
      some (names.map fun name => (Table.find? name fields).join.map document) := by
  show (Document.named? (documentMembers (present fields))).bind (Document.fields? · names) = _
  rw [named?_documentMembers]
  exact fields?_present h names

end

end ProviderProtocol.Json
