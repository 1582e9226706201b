import ProviderProtocol.Proofs.Json.Record
import ProviderProtocol.Proofs.Schema.WellFormed
import ProviderProtocol.Proofs.Ty.Descriptor
import ProviderProtocol.Schema.Equality
import ProviderProtocol.Schema.Json
/-!
# Schemas in JSON text

Attributes, blocks and schemas are written as records: what is empty or absent is left out, and a nested block is one
record with its nesting.  Read again, each field has what was written or, where nothing was written, a default that is
the same (`Block.ofMembers?_written`).  Only the depth at which text can be read sets a limit.
-/
namespace ProviderProtocol

open Json (Document depthLimit present memberDocuments)

/-! ## Leaves -/

theorem AttributeMode.ofName?_name (m : AttributeMode) : ofName? m.name = some m := by cases m <;> decide

theorem NestingMode.ofName?_name (m : NestingMode) : ofName? m.name = some m := by cases m <;> decide

theorem ImportRequirement.ofName?_name (r : ImportRequirement) : ofName? r.name = some r := by cases r <;> decide

theorem int64?_ofInt64 (n : Int64) : Document.int64? (Json.number (.ofInt64 n)).document = some n := by
  have low := Int64.le_toInt n
  have high := Int64.toInt_lt n
  show (if -9223372036854775808 ≤ n.toInt ∧ n.toInt ≤ 9223372036854775807 then some n.toInt else none).map _ = _
  rw [if_pos ⟨low, by omega⟩, Option.map_some, Int64.ofInt_toInt]

theorem uint32?_ofUInt32 (n : UInt32) : Document.uint32? (Json.number (.ofUInt32 n)).document = some n := by
  have high := n.toNat_lt
  show (if 0 ≤ (n.toNat : Int) ∧ (n.toNat : Int) ≤ 4294967295 then some (n.toNat : Int) else none).map _ = _
  rw [if_pos (by omega), Option.map_some, Int.toNat_natCast, UInt32.ofNat_toNat]

theorem orElse_description (text : Option String) :
    Document.orElse none Document.optionalText? ((text.map Json.string).map Json.document) = some text := by
  cases text <;> rfl

theorem Ty.ofDocument?_descriptor {t : Ty} {depth : Nat} (ht : t.Canonical) (hd : t.descriptor.depth ≤ depth) :
    ofDocument? depth t.descriptor.document = some t := by
  unfold ofDocument?
  rw [Json.json?_document ((tabular_descriptor_iff t).2 ht) hd]
  show (ofDescriptor t.descriptor).toOption = some t
  rw [ofDescriptor_descriptor]
  rfl

/-! ## Tables -/

/-- The field for a table, which is absent where the table is empty. -/
def tableField (members : List (String × Json)) : Option Json :=
  if members.isEmpty then none else some (.object members)

theorem tableMember_eq (name : String) (members : List (String × Json)) :
    tableMember name members = present [(name, tableField members)] := by
  cases members <;> rfl

theorem descriptionMember_eq (text : Option String) :
    descriptionMember text = present [("description", text.map .string)] := by
  cases text <;> rfl

section

variable {read : Document → Option α} {write : α → Json} {t : List (String × α)}

theorem mapM_read (hread : ∀ e ∈ t, read (write e.2).document = some e.2) :
    (memberDocuments (t.map fun e => (e.1, write e.2))).mapM (fun (name, d) => (read d).map fun a => (name, a)) =
      some t := by
  induction t with
  | nil => rfl
  | cons e t ih =>
    obtain ⟨name, a⟩ := e
    obtain ⟨ha, ht⟩ := List.forall_mem_cons.1 hread
    show List.mapM _ ((name, (write a).document) :: memberDocuments (t.map fun e => (e.1, write e.2))) = _
    rw [List.mapM_cons, ih ht]
    show (do
      let definition ← (read (write a).document).map fun a => (name, a)
      let definitions ← some t
      pure (definition :: definitions)) = _
    rw [ha]
    rfl

theorem readTable?_object (hnodup : (Table.names t).Nodup) (hread : ∀ e ∈ t, read (write e.2).document = some e.2) :
    readTable? read (Json.object (t.map fun e => (e.1, write e.2))).document = some t := by
  have hdefinitions := mapM_read hread
  have htable : Table.putAll [] t = t := Table.putAll_of_nodup hnodup
  refine Option.bind_eq_some_iff.2 ⟨_, Json.members?_object _, ?_⟩
  exact Option.bind_eq_some_iff.2 ⟨t, hdefinitions, congrArg some htable⟩

/-- **A table comes back**, in its order and also when nothing was written. -/
theorem orElse_tableField (hnodup : (Table.names t).Nodup) (hread : ∀ e ∈ t, read (write e.2).document = some e.2) :
    Document.orElse [] (readTable? read) ((tableField (t.map fun e => (e.1, write e.2))).map Json.document) =
      some t := by
  cases t with
  | nil      => rfl
  | cons e t => exact readTable?_object hnodup hread

theorem depth_lt_object_map {e : String × α} (he : e ∈ t) :
    (write e.2).depth < (Json.object (t.map fun e => (e.1, write e.2))).depth :=
  Json.depth_lt_object (m := (e.1, write e.2)) (List.mem_map.2 ⟨e, he, rfl⟩)

theorem depth_lt_tableField {fields : List (String × Option Json)} {name : String} {e : String × α}
    (h : (name, tableField (t.map fun e => (e.1, write e.2))) ∈ fields) (he : e ∈ t) :
    (write e.2).depth + 2 ≤ (Json.object (present fields)).depth := by
  have hsome : tableField (t.map fun e => (e.1, write e.2)) = some (.object (t.map fun e => (e.1, write e.2))) := by
    cases t with
    | nil      => cases he
    | cons e t => rfl
  have hinner : (write e.2).depth < (Json.object (t.map fun e => (e.1, write e.2))).depth := depth_lt_object_map he
  rw [hsome] at h
  have houter := Json.depth_lt_present h
  omega

end

/-! ## Attributes -/

namespace Attribute

def fields (a : Attribute) : List (String × Option Json) :=
  [("type", some a.ty.descriptor), ("mode", some (.string a.mode.name)), ("sensitive", some (.bool a.sensitive)),
    ("deprecated", some (.bool a.deprecated)), ("description", a.description.map .string)]

theorem toJson_eq (a : Attribute) : a.toJson = .object (present a.fields) := by
  unfold toJson
  rw [descriptionMember_eq]
  rfl

theorem nodup_names_fields (a : Attribute) : (Table.names a.fields).Nodup :=
  (by decide : ["type", "mode", "sensitive", "deprecated", "description"].Nodup)

theorem ofDocument?_toJson {a : Attribute} (ht : a.ty.Canonical) (hd : a.toJson.depth ≤ depthLimit) :
    ofDocument? a.toJson.document = some a := by
  rw [toJson_eq] at hd ⊢
  have hfield : ("type", some a.ty.descriptor) ∈ a.fields := List.mem_cons_self
  have hty := Json.depth_lt_present hfield
  refine Option.bind_eq_some_iff.2 ⟨_, Json.record?_present a.nodup_names_fields _, ?_⟩
  refine Option.bind_eq_some_iff.2 ⟨_, Ty.ofDocument?_descriptor ht (by omega), ?_⟩
  refine Option.bind_eq_some_iff.2 ⟨_, AttributeMode.ofName?_name a.mode, ?_⟩
  refine Option.bind_eq_some_iff.2 ⟨a.sensitive, rfl, Option.bind_eq_some_iff.2 ⟨a.deprecated, rfl, ?_⟩⟩
  exact Option.bind_eq_some_iff.2 ⟨_, orElse_description a.description, rfl⟩

end Attribute

/-! ## Blocks -/

namespace Block

def fields (b : Block) : List (String × Option Json) :=
  [("attributes", tableField (b.attributes.map fun e => (e.1, e.2.toJson))),
    ("blocks", tableField (jsonBlocks b.blocks)), ("description", b.description.map .string),
    ("deprecated", some (.bool b.deprecated))]

/-- A nested block is one record with its nesting. -/
def nestedFields (e : Nesting × Block) : List (String × Option Json) :=
  e.2.fields ++ [("nesting_mode", some (.string e.1.mode.name)), ("min_items", some (.number (.ofUInt32 e.1.minItems))),
    ("max_items", some (.number (.ofUInt32 e.1.maxItems)))]

def nestedJson (e : Nesting × Block) : Json := .object (present (nestedFields e))

theorem present_append (fields more : List (String × Option Json)) :
    present (fields ++ more) = present fields ++ present more :=
  List.filterMap_append

theorem jsonFields_eq (b : Block) : b.jsonFields = present b.fields := by
  obtain ⟨attributes, blocks, description, deprecated⟩ := b
  rw [jsonFields, tableMember_eq, tableMember_eq, descriptionMember_eq]
  show _ ++ present [("deprecated", some (.bool deprecated))] = _
  rw [← present_append, ← present_append, ← present_append]
  rfl

theorem jsonBlocks_eq : ∀ blocks : List (String × Nesting × Block),
    jsonBlocks blocks = blocks.map fun e => (e.1, nestedJson e.2)
  | []                             => rfl
  | (name, nesting, inner) :: rest => by
    rw [jsonBlocks, jsonBlocks_eq rest, jsonFields_eq, List.map_cons]
    unfold nestedJson nestedFields
    rw [present_append]
    rfl

/-- How a nested block is read from its document. -/
def nested? (fuel : Nat) (d : Document) : Option (Nesting × Block) := do
  let ms ← d.members?
  match ← Document.fields? ms ["nesting_mode", "min_items", "max_items"] with
  | [mode, low, high] =>
    let choose d := (Document.choice? Document.isVoid d).bind NestingMode.ofName?
    let nesting : Nesting := ⟨← Document.orElse .single choose mode,
      ← Document.orElse 0 Document.uint32? low, ← Document.orElse 0 Document.uint32? high⟩
    return (nesting, ← ofMembers? fuel ms)
  | _ => none

/-- The members hold the fields of the block, whatever else is among them. -/
def WrittenIn (b : Block) (ms : List (String × Document)) : Prop :=
  Document.fields? ms ["attributes", "blocks", "description", "deprecated"] =
    some (b.fields.map fun f => f.2.map Json.document)

theorem ofMembers?_of_parts {b : Block} {fuel : Nat} {ms : List (String × Document)} (hb : b.Regular)
    (hms : b.WrittenIn ms) (hread : ∀ e ∈ b.attributes, Attribute.ofDocument? e.2.toJson.document = some e.2)
    (hnested : ∀ e ∈ b.blocks, nested? fuel (nestedJson e.2).document = some e.2) :
    ofMembers? (fuel + 1) ms = some b := by
  have hattrs := orElse_tableField hb.1 hread
  have hblocks := orElse_tableField hb.2.1 hnested
  rw [← jsonBlocks_eq] at hblocks
  rw [ofMembers?]
  refine Option.bind_eq_some_iff.2 ⟨_, hms, ?_⟩
  refine Option.bind_eq_some_iff.2 ⟨_, hattrs, Option.bind_eq_some_iff.2 ⟨_, hblocks, ?_⟩⟩
  refine Option.bind_eq_some_iff.2 ⟨_, orElse_description b.description, ?_⟩
  cases b
  rfl

theorem nodup_names_nestedFields (e : Nesting × Block) : (Table.names (nestedFields e)).Nodup :=
  (by decide : ["attributes", "blocks", "description", "deprecated", "nesting_mode", "min_items", "max_items"].Nodup)

theorem writtenIn_nestedFields (e : Nesting × Block) : e.2.WrittenIn (memberDocuments (present (nestedFields e))) := by
  unfold WrittenIn
  rw [Json.fields?_present (nodup_names_nestedFields e)]
  rfl

theorem nested?_of_ofMembers? {fuel : Nat} {e : Nesting × Block}
    (h : ofMembers? fuel (memberDocuments (present (nestedFields e))) = some e.2) :
    nested? fuel (nestedJson e).document = some e := by
  obtain ⟨⟨mode, low, high⟩, inner⟩ := e
  refine Option.bind_eq_some_iff.2 ⟨_, Json.members?_object _, ?_⟩
  rw [Json.fields?_present (nodup_names_nestedFields _)]
  show (do
    let mode ← NestingMode.ofName? mode.name
    let low ← Document.uint32? (Json.number (.ofUInt32 low)).document
    let high ← Document.uint32? (Json.number (.ofUInt32 high)).document
    let inner ← ofMembers? fuel (memberDocuments (present (nestedFields _)))
    pure ((⟨mode, low, high⟩, inner) : Nesting × Block)) = _
  rw [NestingMode.ofName?_name, uint32?_ofUInt32, uint32?_ofUInt32, h]
  rfl

theorem depth_fields_le (e : Nesting × Block) : (Json.object (present e.2.fields)).depth ≤ (nestedJson e).depth :=
  Json.depth_present_le (List.subset_append_left _ _)

theorem depth_attribute_le {b : Block} {e : String × Attribute} (he : e ∈ b.attributes) :
    e.2.toJson.depth + 2 ≤ (Json.object (present b.fields)).depth := by
  have hfield : ("attributes", tableField (b.attributes.map fun e => (e.1, e.2.toJson))) ∈ b.fields :=
    List.mem_cons_self
  exact depth_lt_tableField hfield he

theorem depth_nested_le {b : Block} {e : String × Nesting × Block} (he : e ∈ b.blocks) :
    (nestedJson e.2).depth + 2 ≤ (Json.object (present b.fields)).depth := by
  have hfield : ("blocks", tableField (b.blocks.map fun e => (e.1, nestedJson e.2))) ∈ b.fields := by
    rw [← jsonBlocks_eq]
    exact List.mem_cons_of_mem _ List.mem_cons_self
  exact depth_lt_tableField hfield he

mutual

theorem ofMembers?_written : ∀ {b : Block} {fuel : Nat} {ms : List (String × Document)}, b.Throughout Regular →
    (Json.object (present b.fields)).depth ≤ fuel → fuel ≤ depthLimit → b.WrittenIn ms → ofMembers? fuel ms = some b
  | _, 0, _, _, hdepth, _, _ => absurd hdepth (Nat.not_succ_le_zero _)
  | ⟨attributes, blocks, description, deprecated⟩, fuel + 1, ms, ⟨⟨hattrs, hblocks, htypes⟩, hinside⟩, hdepth, hlimit,
      hms => by
    refine ofMembers?_of_parts ⟨hattrs, hblocks, htypes⟩ hms (fun e he => ?_)
      (nested?_written hinside (fun e he => ?_) ?_)
    · have hd := depth_attribute_le (b := ⟨attributes, blocks, description, deprecated⟩) he
      exact Attribute.ofDocument?_toJson (htypes e he) (by omega)
    · have hd := depth_nested_le (b := ⟨attributes, blocks, description, deprecated⟩) he
      omega
    · omega

theorem nested?_written : ∀ {blocks : List (String × Nesting × Block)} {fuel : Nat}, ThroughoutBlocks Regular blocks →
    (∀ e ∈ blocks, (nestedJson e.2).depth ≤ fuel) → fuel ≤ depthLimit →
      ∀ e ∈ blocks, nested? fuel (nestedJson e.2).document = some e.2
  | [], _, _, _, _                                                     => List.forall_mem_nil _
  | (name, nesting, inner) :: rest, fuel, ⟨hinner, hrest⟩, hdepth, hlimit => by
    obtain ⟨hd, hds⟩ := List.forall_mem_cons.1 hdepth
    refine List.forall_mem_cons.2 ⟨nested?_of_ofMembers? ?_, nested?_written hrest hds hlimit⟩
    have hfields := Nat.le_trans (depth_fields_le (nesting, inner)) hd
    exact ofMembers?_written hinner hfields hlimit (writtenIn_nestedFields (nesting, inner))

end

end Block

/-! ## Schemas -/

namespace Schema

def fields (s : Schema) : List (String × Option Json) :=
  ("version", some (.number (.ofInt64 s.version))) :: s.block.fields

theorem toJson_eq (s : Schema) : s.toJson = .object (present s.fields) := by
  unfold toJson
  rw [Block.jsonFields_eq]
  rfl

theorem nodup_names_fields (s : Schema) : (Table.names s.fields).Nodup :=
  (by decide : ["version", "attributes", "blocks", "description", "deprecated"].Nodup)

theorem ofDocument?_toJson {s : Schema} (hs : s.WellFormed) (hd : s.toJson.depth ≤ depthLimit) :
    ofDocument? s.toJson.document = some s := by
  obtain ⟨j, hj⟩ := Option.isSome_iff_exists.1 (Json.isSome_json?_document hd)
  rw [toJson_eq] at hd hj ⊢
  have hversion := Json.field?_present s.nodup_names_fields "version"
  have hwritten : s.block.WrittenIn (memberDocuments (present s.fields)) :=
    Json.fields?_present s.nodup_names_fields _
  have hfields : (Json.object (present s.block.fields)).depth ≤ depthLimit :=
    Nat.le_trans (Json.depth_present_le (List.subset_cons_self _ _)) hd
  have hblock := Block.ofMembers?_written hs hfields (Nat.le_refl _) hwritten
  refine Option.bind_eq_some_iff.2 ⟨j, hj, Option.bind_eq_some_iff.2 ⟨_, Json.members?_object _, ?_⟩⟩
  refine Option.bind_eq_some_iff.2 ⟨_, hversion, Option.bind_eq_some_iff.2 ⟨_, int64?_ofInt64 s.version, ?_⟩⟩
  exact Option.bind_eq_some_iff.2 ⟨_, hblock, rfl⟩

end Schema

/-! ## Identity schemas -/

namespace IdentityAttribute

def fields (a : IdentityAttribute) : List (String × Option Json) :=
  [("type", some a.ty.descriptor), ("import", some (.string a.requirement.name)),
    ("description", a.description.map .string)]

theorem toJson_eq (a : IdentityAttribute) : a.toJson = .object (present a.fields) := by
  unfold toJson
  rw [descriptionMember_eq]
  rfl

theorem nodup_names_fields (a : IdentityAttribute) : (Table.names a.fields).Nodup :=
  (by decide : ["type", "import", "description"].Nodup)

/-- Two objects less deep than the text is read, an attribute's type three less. -/
theorem ofDocument?_toJson {a : IdentityAttribute} (ht : a.ty.Canonical) (hd : a.toJson.depth + 2 ≤ depthLimit) :
    ofDocument? a.toJson.document = some a := by
  rw [toJson_eq] at hd ⊢
  have hfield : ("type", some a.ty.descriptor) ∈ a.fields := List.mem_cons_self
  have hdepth := Json.depth_lt_present hfield
  have hty : Ty.ofDocument? (depthLimit - 3) a.ty.descriptor.document = some a.ty :=
    Ty.ofDocument?_descriptor ht (by omega)
  refine Option.bind_eq_some_iff.2 ⟨_, Json.record?_present a.nodup_names_fields _, ?_⟩
  refine Option.bind_eq_some_iff.2 ⟨_, hty, ?_⟩
  refine Option.bind_eq_some_iff.2 ⟨_, ImportRequirement.ofName?_name a.requirement, ?_⟩
  exact Option.bind_eq_some_iff.2 ⟨_, orElse_description a.description, rfl⟩

end IdentityAttribute

namespace IdentitySchema

/-- Unlike the tables of a block, this one is written also if it is empty. -/
def fields (s : IdentitySchema) : List (String × Option Json) :=
  [("version", some (.number (.ofInt64 s.version))),
    ("attributes", some (.object (s.attributes.map fun e => (e.1, e.2.toJson))))]

theorem nodup_names_fields (s : IdentitySchema) : (Table.names s.fields).Nodup :=
  (by decide : ["version", "attributes"].Nodup)

theorem ofDocument?_toJson {s : IdentitySchema} (hs : s.WellFormed) (hd : s.toJson.depth ≤ depthLimit) :
    ofDocument? s.toJson.document = some s := by
  have hfield : ("attributes", some (.object (s.attributes.map fun e => (e.1, e.2.toJson)))) ∈ s.fields :=
    List.mem_cons_of_mem _ List.mem_cons_self
  have htable : (Json.object (s.attributes.map fun e => (e.1, e.2.toJson))).depth < s.toJson.depth :=
    Json.depth_lt_present hfield
  have hread : ∀ e ∈ s.attributes, IdentityAttribute.ofDocument? e.2.toJson.document = some e.2 := by
    intro e he
    have hentry : e.2.toJson.depth < (Json.object (s.attributes.map fun e => (e.1, e.2.toJson))).depth :=
      depth_lt_object_map he
    exact IdentityAttribute.ofDocument?_toJson (hs.2 e he) (by omega)
  show ofDocument? (Json.object (present s.fields)).document = some s
  unfold ofDocument?
  refine Option.bind_eq_some_iff.2 ⟨_, Json.record?_present s.nodup_names_fields _, ?_⟩
  refine Option.bind_eq_some_iff.2 ⟨_, int64?_ofInt64 s.version, ?_⟩
  exact Option.bind_eq_some_iff.2 ⟨_, readTable?_object hs.1 hread, rfl⟩

end IdentitySchema

/-! ## Texts -/

theorem integral_descriptionMember (text : Option String) : Json.MembersIntegral (descriptionMember text) := by
  cases text with
  | none   => trivial
  | some _ => exact ⟨trivial, trivial⟩

theorem integral_tableMember (name : String) {ms : List (String × Json)} (h : Json.MembersIntegral ms) :
    Json.MembersIntegral (tableMember name ms) := by
  unfold tableMember
  split
  · trivial
  · exact ⟨h, trivial⟩

theorem Attribute.integral_toJson (a : Attribute) : a.toJson.Integral :=
  ⟨Ty.integral_descriptor a.ty, trivial, trivial, trivial, integral_descriptionMember a.description⟩

theorem IdentityAttribute.integral_toJson (a : IdentityAttribute) : a.toJson.Integral :=
  ⟨Ty.integral_descriptor a.ty, trivial, integral_descriptionMember a.description⟩

namespace Block

mutual

theorem integral_jsonFields : ∀ b : Block, Json.MembersIntegral b.jsonFields
  | ⟨attributes, blocks, description, deprecated⟩ => by
    have hattrs : Json.MembersIntegral (attributes.map fun e => (e.1, e.2.toJson)) :=
      Json.membersIntegral_iff.2 (List.forall_mem_map.2 fun e _ => e.2.integral_toJson)
    rw [jsonFields]
    simp only [Json.membersIntegral_append]
    exact ⟨⟨⟨integral_tableMember _ hattrs, integral_tableMember _ (integral_jsonBlocks blocks)⟩,
      integral_descriptionMember description⟩, trivial, trivial⟩

theorem integral_jsonBlocks : ∀ blocks : List (String × Nesting × Block), Json.MembersIntegral (jsonBlocks blocks)
  | []                   => trivial
  | (_, _, inner) :: rest =>
    ⟨Json.membersIntegral_append.2 ⟨integral_jsonFields inner, trivial, trivial, trivial, trivial⟩,
      integral_jsonBlocks rest⟩

end

end Block

theorem Schema.ofText?_text {s : Schema} (hs : s.WellFormed) (hd : s.toJson.depth ≤ depthLimit) :
    Schema.ofText? s.toJson.text = some s := by
  have hread : s.toJson.Integral := ⟨trivial, Block.integral_jsonFields s.block⟩
  unfold ofText?
  rw [Json.ofText?_text hread]
  exact ofDocument?_toJson hs hd

theorem IdentitySchema.ofText?_text {s : IdentitySchema} (hs : s.WellFormed) (hd : s.toJson.depth ≤ depthLimit) :
    IdentitySchema.ofText? s.toJson.text = some s := by
  have hattrs : Json.MembersIntegral (s.attributes.map fun e => (e.1, e.2.toJson)) :=
    Json.membersIntegral_iff.2 (List.forall_mem_map.2 fun e _ => e.2.integral_toJson)
  have hread : s.toJson.Integral := ⟨trivial, hattrs, trivial⟩
  unfold ofText?
  rw [Json.ofText?_text hread]
  exact ofDocument?_toJson hs hd

/-! ## Schemas that are read

Whatever the text is, what is read from it is well-formed. -/

theorem Ty.ofDocument?_canonical {depth : Nat} {d : Document} {t : Ty} (h : ofDocument? depth d = some t) :
    t.Canonical := by
  unfold ofDocument? at h
  split at h
  · rename_i j hj
    rw [← tabular_descriptor_iff, descriptor_of_ofDescriptor (toOption_eq_some.1 h)]
    exact (Document.json?_eq_some hj).1
  · cases h

theorem Attribute.ofDocument?_canonical {d : Document} {a : Attribute} (h : ofDocument? d = some a) :
    a.ty.Canonical := by
  obtain ⟨fields, _, h⟩ := Option.bind_eq_some_iff.1 h
  split at h
  · obtain ⟨t, ht, h⟩ := Option.bind_eq_some_iff.1 h
    obtain ⟨mode, _, h⟩ := Option.bind_eq_some_iff.1 h
    obtain ⟨sensitive, _, h⟩ := Option.bind_eq_some_iff.1 h
    obtain ⟨deprecated, _, h⟩ := Option.bind_eq_some_iff.1 h
    obtain ⟨description, _, h⟩ := Option.bind_eq_some_iff.1 h
    cases h
    exact Ty.ofDocument?_canonical ht
  · cases h

section

variable {read : Document → Option α} {P : α → Prop}

theorem mapM_read_eq_some (hread : ∀ d a, read d = some a → P a) : ∀ {ms : List (String × Document)}
    {t : List (String × α)}, ms.mapM (fun (name, d) => (read d).map fun a => (name, a)) = some t → ∀ e ∈ t, P e.2
  | [], t, h             => by
    cases h
    exact List.forall_mem_nil _
  | (name, d) :: ms, t, h => by
    rw [List.mapM_cons] at h
    obtain ⟨e, he, h⟩ := Option.bind_eq_some_iff.1 h
    obtain ⟨es, hes, h⟩ := Option.bind_eq_some_iff.1 h
    obtain ⟨a, ha, rfl⟩ := Option.map_eq_some_iff.1 he
    cases h
    exact List.forall_mem_cons.2 ⟨hread d a ha, mapM_read_eq_some hread hes⟩

theorem orElse_readTable?_eq_some {d : Option Document} {t : List (String × α)} (hread : ∀ d a, read d = some a → P a)
    (h : Document.orElse [] (readTable? read) d = some t) : (Table.names t).Nodup ∧ ∀ e ∈ t, P e.2 := by
  cases d with
  | none   =>
    cases h
    exact ⟨List.nodup_nil, List.forall_mem_nil _⟩
  | some d =>
    obtain ⟨ms, _, h⟩ := Option.bind_eq_some_iff.1 h
    obtain ⟨definitions, hdefinitions, h⟩ := Option.bind_eq_some_iff.1 h
    cases h
    have hall := mapM_read_eq_some hread hdefinitions
    refine ⟨Table.nodup_names_putAll definitions (t := []) List.nodup_nil, fun e he => hall e ?_⟩
    exact (Table.mem_of_mem_putAll (t := []) he).resolve_left List.not_mem_nil

end

theorem Block.nested?_eq_some {fuel : Nat} {d : Document} {e : Nesting × Block} (h : nested? fuel d = some e) :
    ∃ ms, ofMembers? fuel ms = some e.2 := by
  obtain ⟨ms, _, h⟩ := Option.bind_eq_some_iff.1 h
  obtain ⟨fields, _, h⟩ := Option.bind_eq_some_iff.1 h
  split at h
  · obtain ⟨mode, _, h⟩ := Option.bind_eq_some_iff.1 h
    obtain ⟨low, _, h⟩ := Option.bind_eq_some_iff.1 h
    obtain ⟨high, _, h⟩ := Option.bind_eq_some_iff.1 h
    obtain ⟨inner, hinner, h⟩ := Option.bind_eq_some_iff.1 h
    cases h
    exact ⟨ms, hinner⟩
  · cases h

theorem Block.ofMembers?_regular : ∀ {fuel : Nat} {ms : List (String × Document)} {b : Block},
    ofMembers? fuel ms = some b → b.Throughout Regular
  | 0, _, _, h         => by cases h
  | fuel + 1, ms, b, h => by
    rw [ofMembers?] at h
    obtain ⟨fields, _, h⟩ := Option.bind_eq_some_iff.1 h
    split at h
    · obtain ⟨attributes, hattrs, h⟩ := Option.bind_eq_some_iff.1 h
      obtain ⟨blocks, hblocks, h⟩ := Option.bind_eq_some_iff.1 h
      obtain ⟨description, _, h⟩ := Option.bind_eq_some_iff.1 h
      obtain ⟨deprecated, _, h⟩ := Option.bind_eq_some_iff.1 h
      cases h
      have hcanonical := orElse_readTable?_eq_some (fun _ _ => Attribute.ofDocument?_canonical) hattrs
      have hnested : ∀ d e, nested? fuel d = some e → e.2.Throughout Regular := by
        intro d e he
        obtain ⟨ms, hms⟩ := nested?_eq_some he
        exact ofMembers?_regular hms
      have hinside := orElse_readTable?_eq_some hnested hblocks
      exact throughout_iff.2 ⟨⟨hcanonical.1, hinside.1, hcanonical.2⟩, hinside.2⟩
    · cases h

theorem Schema.ofText?_wellFormed {text : String} {s : Schema} (h : ofText? text = some s) : s.WellFormed := by
  obtain ⟨d, _, h⟩ := Option.bind_eq_some_iff.1 h
  obtain ⟨j, _, h⟩ := Option.bind_eq_some_iff.1 h
  obtain ⟨ms, _, h⟩ := Option.bind_eq_some_iff.1 h
  obtain ⟨version, _, h⟩ := Option.bind_eq_some_iff.1 h
  obtain ⟨number, _, h⟩ := Option.bind_eq_some_iff.1 h
  obtain ⟨b, hb, h⟩ := Option.bind_eq_some_iff.1 h
  cases h
  exact Block.ofMembers?_regular hb

theorem IdentityAttribute.ofDocument?_canonical {d : Document} {a : IdentityAttribute} (h : ofDocument? d = some a) :
    a.ty.Canonical := by
  obtain ⟨fields, _, h⟩ := Option.bind_eq_some_iff.1 h
  split at h
  · obtain ⟨t, ht, h⟩ := Option.bind_eq_some_iff.1 h
    obtain ⟨requirement, _, h⟩ := Option.bind_eq_some_iff.1 h
    obtain ⟨description, _, h⟩ := Option.bind_eq_some_iff.1 h
    cases h
    exact Ty.ofDocument?_canonical ht
  · cases h

theorem IdentitySchema.ofText?_wellFormed {text : String} {s : IdentitySchema} (h : ofText? text = some s) :
    s.WellFormed := by
  obtain ⟨d, _, h⟩ := Option.bind_eq_some_iff.1 h
  obtain ⟨fields, _, h⟩ := Option.bind_eq_some_iff.1 h
  split at h
  · obtain ⟨version, _, h⟩ := Option.bind_eq_some_iff.1 h
    obtain ⟨attributes, hattrs, h⟩ := Option.bind_eq_some_iff.1 h
    cases h
    exact orElse_readTable?_eq_some (fun _ _ => IdentityAttribute.ofDocument?_canonical) hattrs
  · cases h

/-- **Schemas and identity schemas come back from their JSON text as they were**, unless it is too deep to be read. -/
theorem json_round_trip :
    (∀ s : Schema, s.WellFormed → s.toJson.depth ≤ depthLimit → Schema.ofText? s.toJson.text = some s) ∧
    ∀ s : IdentitySchema, s.WellFormed → s.toJson.depth ≤ depthLimit → IdentitySchema.ofText? s.toJson.text = some s :=
  ⟨fun _ => Schema.ofText?_text, fun _ => IdentitySchema.ofText?_text⟩

/-! A shelf has boxes, and a box has labels by name; some descriptions are empty and some are absent. -/

def shelfSchema : Schema :=
  let box := (Block.empty.addAttribute "sizes" (.required (.tuple [.number, .map .bool]))).addBlock "label" (.new .map)
    (Block.empty.describe "")
  let width := (Attribute.optionalComputed .number).markSensitive
  ⟨-2, ⟨[("width", width), ("id", (Attribute.computed .string).describe "")], [("box", ⟨.list, 1, 4294967295⟩, box)],
    some "a shelf", true⟩⟩

def shelfIdentity : IdentitySchema :=
  ⟨7, [("site", ⟨.object [("hall", .string), ("row", .number)], .optionalForImport, some ""⟩)]⟩

theorem json_round_trip_shelf :
    shelfSchema.WellFormed ∧ shelfSchema.toJson.depth ≤ depthLimit ∧
    Schema.ofText? shelfSchema.toJson.text = some shelfSchema ∧
    shelfIdentity.WellFormed ∧ shelfIdentity.toJson.depth ≤ depthLimit ∧
    IdentitySchema.ofText? shelfIdentity.toJson.text = some shelfIdentity := by
  have hs : shelfSchema.WellFormed ∧ shelfSchema.toJson.depth ≤ depthLimit := by decide +kernel
  have hi : shelfIdentity.WellFormed ∧ shelfIdentity.toJson.depth ≤ depthLimit := by decide +kernel
  exact ⟨hs.1, hs.2, json_round_trip.1 _ hs.1 hs.2, hi.1, hi.2, json_round_trip.2 _ hi.1 hi.2⟩

end ProviderProtocol
