import ProviderProtocol.Proofs.Json.Text
import ProviderProtocol.Proofs.Table
/-!
# JSON values of documents

`depth` counts the arrays and objects that are nested in a value, and a value is `Tabular` if its objects are ascending
tables.  Every value of a document is tabular and no deeper than allowed (`Document.json?_eq_some`); the document in
which such a value is written has that value again (`json?_document`), and where only the depth is known it has some
value (`isSome_json?_document`).
-/
namespace ProviderProtocol.Json

mutual

/-- How many arrays and objects are nested in one another. -/
def depth : Json → Nat
  | .array items    => itemsDepth items + 1
  | .object members => membersDepth members + 1
  | _               => 0

def itemsDepth : List Json → Nat
  | []      => 0
  | j :: js => max j.depth (itemsDepth js)

def membersDepth : List (String × Json) → Nat
  | []           => 0
  | (_, j) :: ms => max j.depth (membersDepth ms)

end

mutual

/-- Every object in it is an ascending table. -/
def Tabular : Json → Prop
  | .array items    => ItemsTabular items
  | .object members => Table.Ascending members ∧ MembersTabular members
  | _               => True

def ItemsTabular : List Json → Prop
  | []      => True
  | j :: js => j.Tabular ∧ ItemsTabular js

def MembersTabular : List (String × Json) → Prop
  | []           => True
  | (_, j) :: ms => j.Tabular ∧ MembersTabular ms

end

/-! ## Lists of items and members -/

theorem membersDepth_le_iff {d : Nat} : ∀ {ms : List (String × Json)}, membersDepth ms ≤ d ↔ ∀ m ∈ ms, m.2.depth ≤ d
  | []           => by simp [membersDepth]
  | (_, j) :: ms => by rw [membersDepth, Nat.max_le, membersDepth_le_iff, List.forall_mem_cons]

theorem membersTabular_iff : ∀ {ms : List (String × Json)}, MembersTabular ms ↔ ∀ m ∈ ms, m.2.Tabular
  | []           => by simp [MembersTabular]
  | (_, j) :: ms => by rw [MembersTabular, membersTabular_iff, List.forall_mem_cons]

/-! ## Values of written documents -/

mutual

theorem json?_document : ∀ {j : Json} {d : Nat}, j.Tabular → j.depth ≤ d → j.document.json? d = some j
  | .null, _, _, _              => rfl
  | .bool _, _, _, _            => rfl
  | .number _, _, _, _          => rfl
  | .string _, _, _, _          => rfl
  | .array _, 0, _, hd          => absurd hd (Nat.not_succ_le_zero _)
  | .object _, 0, _, hd         => absurd hd (Nat.not_succ_le_zero _)
  | .array items, d + 1, hj, hd => by
    rw [document, Document.json?, jsonItems?_document hj (Nat.le_of_succ_le_succ hd)]
    rfl
  | .object ms, d + 1, hj, hd   => by
    rw [document, Document.json?, jsonMembers?_document hj.2 (Nat.le_of_succ_le_succ hd), Option.map_some,
      Table.ofList_of_ascending hj.1]

theorem jsonItems?_document : ∀ {js : List Json} {d : Nat}, ItemsTabular js → itemsDepth js ≤ d →
    Document.jsonItems? d (documentItems js) = some js
  | [], _, _, _       => rfl
  | j :: js, d, hj, hd => by
    obtain ⟨hfirst, hrest⟩ := Nat.max_le.1 hd
    rw [documentItems, Document.jsonItems?, json?_document hj.1 hfirst, jsonItems?_document hj.2 hrest]

theorem jsonMembers?_document : ∀ {ms : List (String × Json)} {d : Nat}, MembersTabular ms → membersDepth ms ≤ d →
    Document.jsonMembers? d (documentMembers ms) = some ms
  | [], _, _, _              => rfl
  | (name, j) :: ms, d, hj, hd => by
    obtain ⟨hfirst, hrest⟩ := Nat.max_le.1 hd
    rw [documentMembers]
    unfold Document.jsonMembers?
    rw [json?_document hj.1 hfirst, jsonMembers?_document hj.2 hrest]

end

/-- A value is read back from the bytes of its own text, unless it is nested too deep to be read at all. -/
theorem ofBytes?_text {j : Json} (hj : j.Integral) (ht : j.Tabular) (hd : j.depth ≤ depthLimit) :
    ofBytes? (Text.Utf8.encode j.text) = some j := by
  unfold ofBytes?
  rw [Text.Utf8.decode?_encode]
  show (Document.ofText? j.text).bind (·.json? depthLimit) = some j
  rw [ofText?_text hj]
  exact json?_document ht hd

mutual

theorem isSome_json?_document : ∀ {j : Json} {d : Nat}, j.depth ≤ d → (j.document.json? d).isSome = true
  | .null, _, _             => rfl
  | .bool _, _, _           => rfl
  | .number _, _, _         => rfl
  | .string _, _, _         => rfl
  | .array _, 0, hd         => absurd hd (Nat.not_succ_le_zero _)
  | .object _, 0, hd        => absurd hd (Nat.not_succ_le_zero _)
  | .array items, d + 1, hd => by
    rw [document, Document.json?, Option.isSome_map]
    exact isSome_jsonItems?_document (Nat.le_of_succ_le_succ hd)
  | .object ms, d + 1, hd   => by
    rw [document, Document.json?, Option.isSome_map]
    exact isSome_jsonMembers?_document (Nat.le_of_succ_le_succ hd)

theorem isSome_jsonItems?_document : ∀ {js : List Json} {d : Nat}, itemsDepth js ≤ d →
    (Document.jsonItems? d (documentItems js)).isSome = true
  | [], _, _       => rfl
  | j :: js, d, hd => by
    obtain ⟨hfirst, hrest⟩ := Nat.max_le.1 hd
    obtain ⟨a, ha⟩ := Option.isSome_iff_exists.1 (isSome_json?_document hfirst)
    obtain ⟨as, has⟩ := Option.isSome_iff_exists.1 (isSome_jsonItems?_document hrest)
    rw [documentItems, Document.jsonItems?, ha, has]
    rfl

theorem isSome_jsonMembers?_document : ∀ {ms : List (String × Json)} {d : Nat}, membersDepth ms ≤ d →
    (Document.jsonMembers? d (documentMembers ms)).isSome = true
  | [], _, _              => rfl
  | (name, j) :: ms, d, hd => by
    obtain ⟨hfirst, hrest⟩ := Nat.max_le.1 hd
    obtain ⟨a, ha⟩ := Option.isSome_iff_exists.1 (isSome_json?_document hfirst)
    obtain ⟨as, has⟩ := Option.isSome_iff_exists.1 (isSome_jsonMembers?_document hrest)
    rw [documentMembers]
    unfold Document.jsonMembers?
    rw [ha, has]
    rfl

end

/-! ## Values of any documents -/

mutual

theorem Document.json?_eq_some : ∀ {doc : Document} {d : Nat} {j : Json}, doc.json? d = some j →
    j.Tabular ∧ j.depth ≤ d
  | .null, d, j, h              => by
    rw [Document.json?] at h
    cases h
    exact ⟨trivial, Nat.zero_le d⟩
  | .bool _, d, j, h            => by
    rw [Document.json?] at h
    cases h
    exact ⟨trivial, Nat.zero_le d⟩
  | .number _, d, j, h          => by
    rw [Document.json?] at h
    obtain ⟨n, _, rfl⟩ := Option.map_eq_some_iff.1 h
    exact ⟨trivial, Nat.zero_le d⟩
  | .string _, d, j, h          => by
    rw [Document.json?] at h
    obtain ⟨s, _, rfl⟩ := Option.map_eq_some_iff.1 h
    exact ⟨trivial, Nat.zero_le d⟩
  | .array _, 0, j, h           => by cases h
  | .object _, 0, j, h          => by cases h
  | .array items, d + 1, j, h   => by
    rw [Document.json?] at h
    obtain ⟨js, hjs, rfl⟩ := Option.map_eq_some_iff.1 h
    obtain ⟨htabular, hdepth⟩ := Document.jsonItems?_eq_some hjs
    exact ⟨htabular, Nat.succ_le_succ hdepth⟩
  | .object members, d + 1, j, h => by
    rw [Document.json?] at h
    obtain ⟨ms, hms, rfl⟩ := Option.map_eq_some_iff.1 h
    have hall := Document.jsonMembers?_eq_some hms
    refine ⟨⟨Table.ofList_ascending ms, ?_⟩, Nat.succ_le_succ ?_⟩
    · exact membersTabular_iff.2 fun m hm => (hall m (Table.mem_of_mem_ofList hm)).1
    · exact membersDepth_le_iff.2 fun m hm => (hall m (Table.mem_of_mem_ofList hm)).2

theorem Document.jsonItems?_eq_some : ∀ {docs : List Document} {d : Nat} {js : List Json},
    Document.jsonItems? d docs = some js → ItemsTabular js ∧ itemsDepth js ≤ d
  | [], d, js, h          => by
    rw [Document.jsonItems?] at h
    cases h
    exact ⟨trivial, Nat.zero_le d⟩
  | doc :: docs, d, js, h => by
    rw [Document.jsonItems?] at h
    split at h
    · rename_i j js' hj hjs
      cases h
      obtain ⟨hfirst, hfirst'⟩ := Document.json?_eq_some hj
      obtain ⟨hrest, hrest'⟩ := Document.jsonItems?_eq_some hjs
      exact ⟨⟨hfirst, hrest⟩, Nat.max_le.2 ⟨hfirst', hrest'⟩⟩
    · cases h

theorem Document.jsonMembers?_eq_some : ∀ {docs : List (Option String × Document)} {d : Nat}
    {ms : List (String × Json)}, Document.jsonMembers? d docs = some ms →
      ∀ m ∈ ms, m.2.Tabular ∧ m.2.depth ≤ d
  | [], d, ms, h                  => by
    rw [Document.jsonMembers?] at h
    cases h
    exact List.forall_mem_nil _
  | (name, doc) :: docs, d, ms, h => by
    unfold Document.jsonMembers? at h
    split at h
    · rename_i k j ms' hj hms
      cases h
      exact List.forall_mem_cons.2 ⟨Document.json?_eq_some hj, Document.jsonMembers?_eq_some hms⟩
    · cases h

end

/-- A value that is read from bytes is tabular and no deeper than allowed. -/
theorem ofBytes?_eq_some {bytes : Bytes} {j : Json} (h : ofBytes? bytes = some j) :
    j.Tabular ∧ j.depth ≤ depthLimit := by
  obtain ⟨s, _, hs⟩ := Option.bind_eq_some_iff.1 h
  obtain ⟨doc, _, hvalue⟩ := Option.bind_eq_some_iff.1 hs
  exact Document.json?_eq_some hvalue

end ProviderProtocol.Json
