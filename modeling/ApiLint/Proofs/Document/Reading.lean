import ApiLint.Document.Basic
import ApiLint.Proofs.Json.Related
import ApiLint.Proofs.Schema.Trees

/-! Where the parts of a description stand in the value that it is read from. -/

namespace ApiLint

namespace HttpMethod

/-- The key is the token of the method, whatever the case of its letters. -/
def Names (method : HttpMethod) (key : String) : Prop := asciiLower key = method.token

theorem ofKey?_eq_some_iff {method : HttpMethod} {key : String} :
    ofKey? key = some method ↔ method.Names key := by
  constructor
  · intro h
    have := List.find?_some h
    exact (beq_iff_eq.mp this).symm
  · intro h
    rw [ofKey?, h]
    cases method <;> decide

end HttpMethod

namespace Json

/-- The text of a scalar. -/
inductive HasText : Json → String → Prop where
  | string (text) : HasText (.string text) text
  | number (number) : HasText (.number number) number.text
  | true : HasText (.bool true) "true"
  | false : HasText (.bool false) "false"

theorem hasText_iff {value : Json} {text : String} :
    value.HasText text ↔ value.scalarText? = some text := by
  constructor
  · rintro (_ | _ | _ | _) <;> rfl
  · intro h
    cases value with
    | string _ =>
        obtain rfl := Option.some.inj h
        exact .string _
    | number _ =>
        obtain rfl := Option.some.inj h
        exact .number _
    | bool value =>
        obtain rfl := Option.some.inj h
        cases value
        · exact .false
        · exact .true
    | _ => cases h

/-- A value with a text that is not empty. -/
def Filled (value : Json) : Prop := ∃ text, value.HasText text ∧ text ≠ ""

theorem filled_iff {value : Json} : value.Filled ↔ value.filledText?.isSome := by
  simp only [Filled, hasText_iff, filledText?, Option.isSome_filter]
  cases value.scalarText? <;> simp

theorem isSome_bind_filledText?_iff {value? : Option Json} :
    (value?.bind filledText?).isSome ↔ ∃ value, value? = some value ∧ value.Filled := by
  cases value? <;> simp [filled_iff]

/-- An operation stands under a key that names its method, in the path item of a path. -/
inductive HasOperation (value : Json) : String → String → HttpMethod → Json → Prop where
  | intro {paths item path key method operation} : value.get? "paths" = some (.object paths) →
      (path, .object item) ∈ paths → (key, operation) ∈ item → method.Names key →
      HasOperation value path key method operation

/-- The response of an operation has a body with the schema. -/
inductive HasBody (operation : Json) : Entries Json → Prop where
  | intro {responses code response content name media root} :
      operation.get? "responses" = some (.object responses) → (code, response) ∈ responses →
      response.get? "content" = some (.object content) → (name, media) ∈ content →
      media.get? "schema" = some (.object root) → HasBody operation root

/-- The schema is one of the components. -/
inductive HasComponent (value : Json) : Entries Json → Prop where
  | intro {components schemas name root} : value.get? "components" = some components →
      components.get? "schemas" = some (.object schemas) → (name, .object root) ∈ schemas →
      HasComponent value root

/-- The schemas that are walked. -/
inductive HasSchema (value : Json) : Entries Json → Prop where
  | component {root} : value.HasComponent root → HasSchema value root
  | body {path key method operation root} : value.HasOperation path key method operation →
      operation.HasBody root → HasSchema value root

/-- The nodes of the walked schemas, by how many steps they stand below a schema. -/
inductive HasSchemaNode (value : Json) : Nat → Entries Json → Prop where
  | root {root} : value.HasSchema root → HasSchemaNode value 0 root
  | step {depth node step child} : HasSchemaNode value depth node → SchemaStep node step child →
      HasSchemaNode value (depth + 1) child

theorem HasSchemaNode.reaches {value : Json} {depth : Nat} {root node : Entries Json}
    {location : Location} (h : value.HasSchemaNode depth root)
    (hl : schemaTree.Reaches root location node) :
    value.HasSchemaNode (depth + location.length) node := by
  induction hl generalizing depth with
  | here => exact h
  | @down node target child location hc _ ih =>
      rw [List.length_cons, Nat.add_comm location.length, ← Nat.add_assoc]
      exact ih (h.step (mem_schemaChildren_iff.mp hc))

theorem hasSchemaNode_iff {value : Json} {depth : Nat} {node : Entries Json} :
    value.HasSchemaNode depth node ↔ ∃ root location, value.HasSchema root ∧
      schemaTree.Reaches root location node ∧ location.length = depth := by
  constructor
  · intro h
    induction h with
    | root hr => exact ⟨_, [], hr, .here _, rfl⟩
    | step _ hs ih =>
        obtain ⟨root, location, hr, hl, rfl⟩ := ih
        exact ⟨root, location ++ [_], hr,
          hl.append (.down (mem_schemaChildren_iff.mpr hs) (.here _)), by simp⟩
  · intro h
    obtain ⟨root, location, hr, hl, rfl⟩ := h
    simpa only [Nat.zero_add] using (HasSchemaNode.root hr).reaches hl

theorem entriesUnder?_eq_some_iff {α : Type} {value : Json} {key : String} {read : Json → α}
    {entries : Entries α} :
    value.entriesUnder? key read = some entries ↔ ∃ members,
      value.get? key = some (.object members) ∧
        members.map (fun member => (member.1, read member.2)) = entries := by
  simp only [entriesUnder?, Option.map_eq_some_iff, Option.bind_eq_some_iff,
    entries?_eq_some_iff]
  constructor
  · intro h
    obtain ⟨members, ⟨_, hv, rfl⟩, he⟩ := h
    exact ⟨members, hv, he⟩
  · intro h
    obtain ⟨members, hv, he⟩ := h
    exact ⟨members, ⟨_, hv, rfl⟩, he⟩

theorem mem_entriesUnder?_iff {α : Type} {value : Json} {key name : String} {read : Json → α}
    {item : α} :
    (name, item) ∈ (value.entriesUnder? key read).getD [] ↔ ∃ members member,
      value.get? key = some (.object members) ∧ (name, member) ∈ members ∧ read member = item := by
  simp only [mem_getD_nil_iff, entriesUnder?_eq_some_iff]
  constructor
  · intro h
    obtain ⟨_, ⟨members, hv, rfl⟩, hi⟩ := h
    obtain ⟨member, hm, he⟩ := List.mem_map.mp hi
    obtain ⟨rfl, rfl⟩ := Prod.mk.inj he
    exact ⟨members, member.2, hv, hm, rfl⟩
  · intro h
    obtain ⟨members, member, hv, hm, rfl⟩ := h
    exact ⟨_, ⟨members, hv, rfl⟩, List.mem_map.mpr ⟨_, hm, rfl⟩⟩

end Json

theorem Field.ofJson_eq_present_iff {α : Type} {read : Json → α} {value? : Option Json} {item : α} :
    Field.ofJson read value? = .present item ↔
      ∃ entries, value? = some (.object entries) ∧ read (.object entries) = item := by
  cases value? with
  | none => simp [Field.ofJson]
  | some value => cases value <;> simp [Field.ofJson]

/-- Values of one shape are fields of one kind. -/
theorem Field.ofJson_of_rel {α : Type} {read : Json → α} {r : Json → Json → Prop}
    (hs : ∀ {value other}, r value other → value.SameShape other) {value? other? : Option Json}
    (h : Option.Rel r value? other?) :
    ofJson read value? = .missing ∧ ofJson read other? = .missing ∨
      (∃ value other, ofJson read value? = .notObject value ∧
        ofJson read other? = .notObject other) ∨
      ∃ value other, r value other ∧ ofJson read value? = .present (read value) ∧
        ofJson read other? = .present (read other) := by
  cases h with
  | none => exact .inl ⟨rfl, rfl⟩
  | @some value _ h =>
      cases hs h with
      | refl =>
          cases value with
          | null => exact .inl ⟨rfl, rfl⟩
          | object entries => exact .inr (.inr ⟨_, _, h, rfl, rfl⟩)
          | _ => exact .inr (.inl ⟨_, _, rfl, rfl⟩)
      | array _ _ => exact .inr (.inl ⟨_, _, rfl, rfl⟩)
      | object _ _ => exact .inr (.inr ⟨_, _, h, rfl, rfl⟩)

namespace Document

variable {value : Json}

theorem openapi_ofJson_eq_some_iff {text : String} :
    (ofJson value).openapi = some text ↔
      ∃ version, value.get? "openapi" = some version ∧ version.HasText text := by
  simp only [ofJson, Option.bind_eq_some_iff, Json.hasText_iff]

theorem pathItems_ofJson (value : Json) :
    (ofJson value).pathItems = (value.entriesUnder? "paths" PathItem.ofJson).getD [] := by
  simp only [pathItems, ofJson, Json.entriesUnder?]
  cases value.get? "paths" with
  | none => rfl
  | some paths => cases paths <;> rfl

theorem mem_pathItems_ofJson_iff {path : String} {item : PathItem} :
    (path, item) ∈ (ofJson value).pathItems ↔ ∃ paths entry,
      value.get? "paths" = some (.object paths) ∧ (path, entry) ∈ paths ∧
        PathItem.ofJson entry = item := by
  rw [pathItems_ofJson, Json.mem_entriesUnder?_iff]

theorem componentSchemas_ofJson (value : Json) :
    (ofJson value).componentSchemas =
      ((value.get? "components").bind fun components =>
        components.entriesUnder? "schemas" Schema.ofJson?).getD [] := by
  simp only [componentSchemas, ofJson, Option.map_map]
  cases value.get? "components" with
  | none => rfl
  | some components => cases components <;> rfl

theorem mem_componentSchemas_ofJson_iff {name : String} {schema : Option Schema} :
    (name, schema) ∈ (ofJson value).componentSchemas ↔ ∃ components schemas entry,
      value.get? "components" = some components ∧
        components.get? "schemas" = some (.object schemas) ∧ (name, entry) ∈ schemas ∧
          Schema.ofJson? entry = schema := by
  rw [componentSchemas_ofJson]
  cases value.get? "components" with
  | none => simp
  | some components => simp [Json.mem_entriesUnder?_iff]

end Document

@[simp] theorem Operation.method_ofJson (method : HttpMethod) (value : Json) :
    (ofJson method value).method = method := rfl

theorem Operation.responses_ofJson (method : HttpMethod) (value : Json) :
    (ofJson method value).responses = value.entriesUnder? "responses" Response.ofJson := rfl

theorem PathItem.mem_operations_ofJson_iff {entry : Json} {key : String} {operation : Operation} :
    (key, operation) ∈ (PathItem.ofJson entry).operations ↔ ∃ item method value,
      entry = .object item ∧ (key, value) ∈ item ∧ method.Names key ∧
        Operation.ofJson method value = operation := by
  simp only [PathItem.ofJson, PathItem.ofJson.entries, List.mem_filterMap, mem_getD_nil_iff,
    Json.entries?_eq_some_iff, Option.map_eq_some_iff, HttpMethod.ofKey?_eq_some_iff, Prod.exists,
    Prod.mk.injEq]
  constructor
  · intro h
    obtain ⟨_, value, ⟨item, he, hv⟩, method, hm, rfl, ho⟩ := h
    exact ⟨item, method, value, he, hv, hm, ho⟩
  · intro h
    obtain ⟨item, method, value, he, hv, hm, ho⟩ := h
    exact ⟨key, value, ⟨item, he, hv⟩, method, hm, rfl, ho⟩

/-- All operations, each with its path and its key. -/
def Document.placedOperations (document : Document) : List (String × String × Operation) :=
  document.pathItems.flatMap fun (path, item) =>
    item.operations.map fun (key, operation) => (path, key, operation)

theorem Document.operations_eq_map (document : Document) :
    document.operations = document.placedOperations.map fun placed => placed.2.2 := by
  simp only [operations, placedOperations, List.map_flatMap, List.map_map]
  rfl

theorem Document.mem_placedOperations_ofJson_iff {value : Json} {path key : String}
    {operation : Operation} :
    (path, key, operation) ∈ (ofJson value).placedOperations ↔ ∃ method entry,
      value.HasOperation path key method entry ∧ Operation.ofJson method entry = operation := by
  simp only [placedOperations, List.mem_flatMap, List.mem_map, Prod.exists, Prod.mk.injEq]
  constructor
  · intro h
    obtain ⟨_, _, hi, _, _, hn, rfl, rfl, rfl⟩ := h
    obtain ⟨paths, _, hp, he, rfl⟩ := mem_pathItems_ofJson_iff.mp hi
    obtain ⟨item, method, entry, rfl, ho, hm, rfl⟩ := PathItem.mem_operations_ofJson_iff.mp hn
    exact ⟨method, entry, .intro hp he ho hm, rfl⟩
  · intro h
    obtain ⟨method, entry, ⟨hp, he, ho, hm⟩, rfl⟩ := h
    exact ⟨path, _, mem_pathItems_ofJson_iff.mpr ⟨_, _, hp, he, rfl⟩, key, _,
      PathItem.mem_operations_ofJson_iff.mpr ⟨_, _, _, rfl, ho, hm, rfl⟩, rfl, rfl, rfl⟩

theorem Document.mem_operations_ofJson_iff {value : Json} {operation : Operation} :
    operation ∈ (ofJson value).operations ↔ ∃ path key method entry,
      value.HasOperation path key method entry ∧ Operation.ofJson method entry = operation := by
  simp only [operations_eq_map, List.mem_map, Prod.exists, mem_placedOperations_ofJson_iff,
    exists_eq_right]

/-! ## Conditions on the schemas that are walked -/

section

variable {holds : Option Schema → Prop}

theorem Document.forall_components_ofJson_iff (hn : holds none) {value : Json} :
    (∀ entry ∈ (ofJson value).componentSchemas, holds entry.2) ↔
      ∀ root, value.HasComponent root → holds (some (.ofEntries root)) := by
  constructor
  · intro h root hr
    obtain ⟨hc, hs, hr⟩ := hr
    exact h _ (mem_componentSchemas_ofJson_iff.mpr ⟨_, _, _, hc, hs, hr, rfl⟩)
  · rintro h ⟨name, _⟩ hm
    obtain ⟨components, schemas, entry, hc, hs, he, rfl⟩ := mem_componentSchemas_ofJson_iff.mp hm
    rw [Schema.ofJson?_eq_map]
    cases hv : entry.entries? with
    | none => exact hn
    | some root =>
        obtain rfl := Json.entries?_eq_some_iff.mp hv
        exact h root (.intro hc hs he)

theorem Operation.forall_bodies_ofJson_iff (hn : holds none) {method : HttpMethod} {value : Json} :
    (∀ entry ∈ (ofJson method value).responses.getD [], ∀ body ∈ entry.2.content,
        holds body.2.schema) ↔
      ∀ root, value.HasBody root → holds (some (.ofEntries root)) := by
  constructor
  · intro h root hb
    obtain ⟨hv, hr, hc, hm, hs⟩ := hb
    have hbody := h _ (Json.mem_entriesUnder?_iff.mpr ⟨_, _, hv, hr, rfl⟩) _
      (Json.mem_entriesUnder?_iff.mpr ⟨_, _, hc, hm, rfl⟩)
    rw [MediaType.ofJson, hs] at hbody
    exact hbody
  · rintro h ⟨code, _⟩ he ⟨name, _⟩ hb
    obtain ⟨responses, response, hv, hr, rfl⟩ := Json.mem_entriesUnder?_iff.mp he
    obtain ⟨content, media, hc, hm, rfl⟩ := Json.mem_entriesUnder?_iff.mp hb
    rw [MediaType.ofJson]
    cases hs : media.get? "schema" with
    | none => exact hn
    | some schema =>
        rw [Option.bind_some, Schema.ofJson?_eq_map]
        cases hv' : schema.entries? with
        | none => exact hn
        | some root =>
            obtain rfl := Json.entries?_eq_some_iff.mp hv'
            exact h root (.intro hv hr hc hm hs)

end

end ApiLint
