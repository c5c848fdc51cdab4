import ChunkLoading.Proofs.Literals
import ChunkLoading.Proofs.Validity

/-!
# Graphs as texts

A record is written as an object of those of its fields that have a value, in the order of their
declaration. It is read back by the names of its fields: a field that was left out has no value again
(`Fields.withDefault?_optional`). Chunks, groups, blocks and whole graphs are such records, so that a graph
is read back from its text (`Graph.ofText?_text`).
-/

namespace ChunkLoading

/-! ## Fields of records -/

namespace Fields

variable {α : Type} {fs : Fields Json} {name : String} {write : α → Json} {read : Json → Option α}

/-- A field that is written is read back. -/
theorem required?_of_lookup {x : α} (found : fs.lookup name = some (write x))
    (back : ∀ x, read (write x) = some x) : fs.required? name read = some x := by
  unfold required?
  rw [found]
  exact back x

/-- A field that is written is read back, whatever its default. -/
theorem withDefault?_of_lookup {default x : α} (found : fs.lookup name = some (write x))
    (back : ∀ x, read (write x) = some x) : fs.withDefault? name default read = some x := by
  unfold withDefault?
  rw [found]
  exact back x

/-- An optional field that is left out when it has no value is read back, if no value is written as a
null. -/
theorem withDefault?_optional {x : Option α} (found : fs.lookup name = x.map write)
    (back : ∀ x, read (write x) = some x) (notNull : ∀ x, write x ≠ .null) :
    fs.withDefault? name none (Json.nullable? read) = some x := by
  unfold withDefault?
  rw [found]
  cases x with
  | none => rfl
  | some x =>
    show Json.nullable? read (write x) = _
    rw [Json.nullable?, back]
    · rfl
    · exact notNull x

end Fields

namespace Json

variable {α : Type} {name : String} {write : α → Json}

/-- The member of a field that may have no value is written well. -/
theorem written_optionalMember (written : ∀ x, (write x).Written) (x : Option α) :
    ∀ m ∈ optionalMember name write x, m.2.Written := by
  intro m member
  cases x with
  | none => cases member
  | some x =>
    obtain rfl := List.mem_singleton.mp member
    exact written x

/-- There is one such member or none. -/
theorem keys_optionalMember (x : Option α) :
    ((optionalMember name write x).map (·.1)).Sublist [name] := by
  cases x with
  | none => exact List.nil_sublist _
  | some x => exact List.Sublist.refl _

/-- It is found by its name alone. -/
theorem lookup_optionalMember (x : Option α) (key : String) :
    (optionalMember name write x).lookup key = if key == name then x.map write else none := by
  cases x with
  | none => simp [optionalMember]
  | some x => cases same : key == name <;> simp [optionalMember, List.lookup_cons, same]

/-- Members that stand in the order of the declared names, each at most once, are the fields of a record. -/
theorem fields?_ofMembers {names : List String} {ms : List (String × Json)}
    (declared : (ms.map (·.1)).Sublist names) (once : names.Nodup) :
    (ofMembers ms).fields? names = some ms := by
  have known : ms.filter (fun m => names.contains m.1) = ms := by
    refine List.filter_eq_self.mpr fun m member => ?_
    exact List.contains_iff_mem.mpr (declared.subset (List.mem_map_of_mem member))
  show (plainKeys? (ms.map fun m => (escape m.1.toList, m.2)) >>= fun given => _) = some ms
  rw [plainKeys?_ofMembers]
  show (if ((ms.filter _).map (·.1)).Nodup then some (ms.filter _) else none) = some ms
  rw [known, if_pos (once.sublist declared)]

end Json

/-- An id is never taken for a field without a value. -/
theorem Id.toJson_ne_null (id : Id) : id.toJson ≠ .null := by
  cases id <;> exact Json.noConfusion

/-! ## Chunks -/

namespace Chunk

variable (c : Chunk)

/-- The members of a written chunk. -/
def members : List (String × Json) :=
  [("id", c.id.toJson)] ++ Json.optionalMember "name" .ofString c.name
    ++ [("modules", .ofList Id.toJson c.modules)] ++ Json.optionalMember "hash" .ofString c.hash

theorem toJson_eq : c.toJson = .ofMembers c.members := rfl

/-- The object of a chunk is written well. -/
theorem written_toJson : c.toJson.Written := by
  refine Json.written_ofMembers ?_
  simp only [List.forall_mem_append, List.forall_mem_singleton]
  exact ⟨⟨⟨c.id.written_toJson, Json.written_optionalMember .string c.name⟩,
    Json.written_ofList Id.written_toJson c.modules⟩, Json.written_optionalMember .string c.hash⟩

/-- A chunk has only fields that are declared, in their order. -/
theorem members_declared : (c.members.map (·.1)).Sublist ["id", "name", "modules", "hash"] := by
  simp only [members, List.map_append]
  exact (((List.Sublist.refl ["id"]).append (Json.keys_optionalMember c.name)).append
    (List.Sublist.refl ["modules"])).append (Json.keys_optionalMember c.hash)

/-- Where the fields of a chunk are found. -/
theorem lookup_members : c.members.lookup "id" = some c.id.toJson ∧
    c.members.lookup "name" = c.name.map .ofString ∧
    c.members.lookup "modules" = some (.ofList Id.toJson c.modules) ∧
    c.members.lookup "hash" = c.hash.map .ofString := by
  simp [members, List.lookup_append, List.lookup_cons, Json.lookup_optionalMember]

/-- A chunk is read back. -/
theorem ofJson?_toJson : ofJson? c.toJson = some c := by
  obtain ⟨id, name, modules, hash⟩ := c.lookup_members
  unfold ofJson?
  rw [toJson_eq, Json.fields?_ofMembers c.members_declared (by decide)]
  simp only [Option.bind_eq_bind, Option.bind_some,
    Fields.required?_of_lookup id Id.ofJson?_toJson,
    Fields.withDefault?_optional name Json.string?_ofString (fun _ => Json.noConfusion),
    Fields.withDefault?_of_lookup modules (Json.list?_ofList Id.ofJson?_toJson),
    Fields.withDefault?_optional hash Json.string?_ofString (fun _ => Json.noConfusion)]
  rfl

end Chunk

/-! ## Groups -/

/-- A kind of group is read back from its word. -/
theorem GroupKind.ofJson?_word (kind : GroupKind) : ofJson? (.ofString kind.word) = some kind := by
  show (Json.ofString kind.word).string?.bind ofWord? = some kind
  rw [Json.string?_ofString]
  cases kind <;> rfl

namespace Group

/-- Every order has its token. -/
theorem order?_ofInt (n : Int32) : order? (.ofInt n.toInt) = some n := by
  have low : -2147483648 ≤ n.toInt := n.minValue_le_toInt
  have high : n.toInt ≤ 2147483647 := n.toInt_le
  unfold order?
  rw [Json.int?_ofInt]
  show (if _ then some (Int32.ofInt n.toInt) else none) = some n
  rw [if_pos ⟨low, high⟩, Int32.ofInt_toInt]

variable (group : Group)

/-- The members of a written group. -/
def members : List (String × Json) :=
  [("id", .ofString group.id), ("kind", .ofString group.kind.word),
    ("chunks", .ofList Id.toJson group.chunks), ("children", .ofList .ofString group.children)]
    ++ Json.optionalMember "entry_module" Id.toJson group.entryModule
    ++ Json.optionalMember "prefetch_order" (Json.ofInt ·.toInt) group.prefetchOrder
    ++ Json.optionalMember "preload_order" (Json.ofInt ·.toInt) group.preloadOrder

theorem toJson_eq : group.toJson = .ofMembers group.members := rfl

/-- The object of a group is written well. -/
theorem written_toJson : group.toJson.Written := by
  refine Json.written_ofMembers ?_
  simp only [List.forall_mem_append, List.forall_mem_cons]
  exact ⟨⟨⟨⟨.string _, .string _, Json.written_ofList Id.written_toJson _,
      Json.written_ofList .string _, by simp⟩,
    Json.written_optionalMember Id.written_toJson _⟩,
    Json.written_optionalMember (fun _ => .number _) _⟩,
    Json.written_optionalMember (fun _ => .number _) _⟩

/-- A group has only fields that are declared, in their order. -/
theorem members_declared : (group.members.map (·.1)).Sublist
    ["id", "kind", "chunks", "children", "entry_module", "prefetch_order", "preload_order"] := by
  simp only [members, List.map_append]
  exact (((List.Sublist.refl ["id", "kind", "chunks", "children"]).append
    (Json.keys_optionalMember group.entryModule)).append
    (Json.keys_optionalMember group.prefetchOrder)).append
    (Json.keys_optionalMember group.preloadOrder)

/-- Where the fields of a group are found. -/
theorem lookup_members : group.members.lookup "id" = some (.ofString group.id) ∧
    group.members.lookup "kind" = some (.ofString group.kind.word) ∧
    group.members.lookup "chunks" = some (.ofList Id.toJson group.chunks) ∧
    group.members.lookup "children" = some (.ofList .ofString group.children) ∧
    group.members.lookup "entry_module" = group.entryModule.map Id.toJson ∧
    group.members.lookup "prefetch_order" = group.prefetchOrder.map (Json.ofInt ·.toInt) ∧
    group.members.lookup "preload_order" = group.preloadOrder.map (Json.ofInt ·.toInt) := by
  simp [members, List.lookup_append, List.lookup_cons, Json.lookup_optionalMember]

/-- A group is read back. -/
theorem ofJson?_toJson : ofJson? group.toJson = some group := by
  obtain ⟨id, kind, chunks, children, entryModule, prefetch, preload⟩ := group.lookup_members
  have kind : Fields.required? group.members "kind" GroupKind.ofJson? = some group.kind := by
    rw [Fields.required?, kind]
    exact group.kind.ofJson?_word
  unfold ofJson?
  rw [toJson_eq, Json.fields?_ofMembers group.members_declared (by decide)]
  simp only [Option.bind_eq_bind, Option.bind_some, kind,
    Fields.required?_of_lookup id Json.string?_ofString,
    Fields.required?_of_lookup chunks (Json.list?_ofList Id.ofJson?_toJson),
    Fields.withDefault?_of_lookup children (Json.list?_ofList Json.string?_ofString),
    Fields.withDefault?_optional entryModule Id.ofJson?_toJson Id.toJson_ne_null,
    Fields.withDefault?_optional prefetch order?_ofInt (fun _ => Json.noConfusion),
    Fields.withDefault?_optional preload order?_ofInt (fun _ => Json.noConfusion)]
  rfl

end Group

/-! ## Blocks -/

namespace AsyncBlock

variable (block : AsyncBlock)

/-- The members of a written block. -/
def members : List (String × Json) :=
  [("module", block.module.toJson), ("group", .ofString block.group)]

theorem toJson_eq : block.toJson = .ofMembers block.members := rfl

theorem written_toJson : block.toJson.Written := by
  refine Json.written_ofMembers ?_
  simp only [List.forall_mem_cons]
  exact ⟨block.module.written_toJson, .string _, by simp⟩

/-- A block is read back. -/
theorem ofJson?_toJson : ofJson? block.toJson = some block := by
  have declared : (block.members.map (·.1)).Sublist ["module", "group"] := List.Sublist.refl _
  have module : block.members.lookup "module" = some block.module.toJson := rfl
  have group : block.members.lookup "group" = some (.ofString block.group) := by
    simp [members, List.lookup_cons]
  unfold ofJson?
  rw [toJson_eq, Json.fields?_ofMembers declared (by decide)]
  simp only [Option.bind_eq_bind, Option.bind_some,
    Fields.required?_of_lookup module Id.ofJson?_toJson,
    Fields.required?_of_lookup group Json.string?_ofString]
  rfl

end AsyncBlock

/-! ## Graphs -/

namespace Graph

variable (g : Graph)

/-- The members of a written graph. -/
def members : List (String × Json) :=
  Json.optionalMember "hash" .ofString g.hash
    ++ [("chunks", .ofList Chunk.toJson g.chunks), ("groups", .ofList Group.toJson g.groups),
      ("blocks", .ofList AsyncBlock.toJson g.blocks)]

theorem toJson_eq : g.toJson = .ofMembers g.members := rfl

theorem written_toJson : g.toJson.Written := by
  refine Json.written_ofMembers ?_
  simp only [List.forall_mem_append, List.forall_mem_cons]
  exact ⟨Json.written_optionalMember .string _, Json.written_ofList Chunk.written_toJson _,
    Json.written_ofList Group.written_toJson _, Json.written_ofList AsyncBlock.written_toJson _, by simp⟩

theorem members_declared : (g.members.map (·.1)).Sublist ["hash", "chunks", "groups", "blocks"] := by
  simp only [members, List.map_append]
  exact (Json.keys_optionalMember g.hash).append (List.Sublist.refl ["chunks", "groups", "blocks"])

/-- Where the fields of a graph are found. -/
theorem lookup_members : g.members.lookup "hash" = g.hash.map .ofString ∧
    g.members.lookup "chunks" = some (.ofList Chunk.toJson g.chunks) ∧
    g.members.lookup "groups" = some (.ofList Group.toJson g.groups) ∧
    g.members.lookup "blocks" = some (.ofList AsyncBlock.toJson g.blocks) := by
  simp [members, List.lookup_append, List.lookup_cons, Json.lookup_optionalMember]

/-- A graph is read back, part by part. -/
theorem ofJson?_toJson : ofJson? g.toJson = some g := by
  obtain ⟨hash, chunks, groups, blocks⟩ := g.lookup_members
  unfold ofJson?
  rw [toJson_eq, Json.fields?_ofMembers g.members_declared (by decide)]
  simp only [Option.bind_eq_bind, Option.bind_some,
    Fields.withDefault?_optional hash Json.string?_ofString (fun _ => Json.noConfusion),
    Fields.required?_of_lookup chunks (Json.list?_ofList Chunk.ofJson?_toJson),
    Fields.withDefault?_of_lookup groups (Json.list?_ofList Group.ofJson?_toJson),
    Fields.withDefault?_of_lookup blocks (Json.list?_ofList AsyncBlock.ofJson?_toJson)]
  rfl

/-- A graph is read back from its text. -/
theorem ofText?_text : ofText? g.text = some g := by
  unfold ofText? text
  rw [g.written_toJson.read?_text]
  exact g.ofJson?_toJson

/-- A valid graph passes the check that reading ends with. -/
theorem read_text (valid : g.validate = .ok ()) : read g.text = .ok g := by
  unfold read
  simp only [ofText?_text, valid]

/-- **Graphs and their texts.** Take any graph: any ids, texts and orders, any optional fields given or left
out. It is read back from its compact text, as a valid graph if it is one and not otherwise. However it is
read back, the hash of the build is the same. Without a given hash that is the fingerprint of the text, and
no other graph has the same text. -/
theorem text_determines :
    ofText? g.text = some g ∧
    (read g.text = .ok g ↔ g.validate = .ok ()) ∧
    (∀ g', ofText? g.text = some g' ∨ read g.text = .ok g' → g'.fullHash = g.fullHash) ∧
    (g.hash = none → g.fullHash = Sha256.fingerprintText g.text) ∧
    ∀ g' : Graph, g.text = g'.text → g = g' := by
  refine ⟨g.ofText?_text, ⟨?_, g.read_text⟩, ?_, ?_, ?_⟩
  · intro back
    exact validate_ok.mpr (valid_of_read back)
  · rintro g' (back | back)
    · rw [ofText?_text] at back
      rw [Option.some.inj back]
    · have valid : g.validate = .ok () := by
        unfold read at back
        simp only [ofText?_text] at back
        split at back
        · assumption
        · cases back
      rw [read_text g valid] at back
      rw [Except.ok.inj back]
  · intro none
    rw [fullHash, none]
    rfl
  · intro g' same
    have back := g.ofText?_text
    rw [same, ofText?_text] at back
    exact (Option.some.inj back).symm

end Graph

/-- A build with the largest number for an id and a numeral for another, the least and the greatest order,
and texts that have to be escaped. -/
def extremeBuild : Graph where
  hash := none
  chunks := [⟨.number 18446744073709551615, some "a\"\\\n\u0001", [.number 0, .name "0"], none⟩,
    ⟨.name "7", none, [], some ""⟩]
  groups := [⟨"g", .entry, [.number 18446744073709551615, .name "7"], ["\u2028"], some (.name "null"),
      some (-2147483648), none⟩,
    ⟨"\u2028", .async, [], [], none, none, some 2147483647⟩]
  blocks := [⟨.number 7, "\u2028"⟩]

/-- A build with the values that are the hardest to write. -/
theorem extremeBuild_read_back : Graph.read extremeBuild.text = .ok extremeBuild ∧
    extremeBuild.fullHash = Sha256.fingerprintText extremeBuild.text := by
  obtain ⟨-, accepted, -, hashed, -⟩ := extremeBuild.text_determines
  exact ⟨accepted.mpr (by decide), hashed rfl⟩

end ChunkLoading
