import TiabloServer.KV.Store

/-!
# The protobuf form of a key-value entry

The model of `kv/value_wrapper_proto.cpp`: `ProtoSerializable::toProto` and `fromProto` between the
`ValueWrapper` of the store and the message `Canary.protobuf.kv.ValueWrapper` of `kv.proto`.

A `MapType` is a hash map. It is modelled by the list of its entries in the order in which the
source iterates over it; that order is not specified, so decoding takes it as a parameter
`arrange`, of which only `Arranges` is assumed. The payload `F` of a double is opaque.

## Main definitions

* `KV.toProto`, `KV.fromProto` — the encoder and the decoder.
* `KV.Same`, `KV.SameProto` — equality up to the order of map entries.

## Main results

* `KV.fromProto_toProto`, `KV.toProto_fromProto` — each function undoes the other.
-/

namespace TiabloServer.KV

/-! ## Values and messages -/

/-- `ValueVariant`: what a `ValueWrapper` holds. -/
inductive ValueVariant (F : Type) where
  | string (s : String)
  | boolean (b : Bool)
  | int (i : Int32)
  | double (d : F)
  | array (vs : List (ValueWrapper (ValueVariant F)))
  | map (es : List (String × ValueWrapper (ValueVariant F)))

/-- The message `ValueWrapper` of `kv.proto`. `notSet` is a message whose `oneof` was never set. -/
inductive ProtoValue (F : Type) where
  | notSet
  | strValue (s : String)
  | intValue (i : Int32)
  | doubleValue (d : F)
  | arrayValue (values : List (ProtoValue F))
  | mapValue (items : List (String × ProtoValue F))
  | boolValue (b : Bool)

/-- `ValueWrapper`, at the variant of the source. -/
abbrev Value (F : Type) : Type := ValueWrapper (ValueVariant F)

variable {F : Type}

/-! ## The encoder -/

mutual

/-- `ProtoSerializable::toProto`. -/
def toProto : Value F → ProtoValue F
  | ⟨data, _, _⟩ => visit data

/-- The visitor in `toProto`. -/
def visit : ValueVariant F → ProtoValue F
  | .string s => .strValue s
  | .boolean b => .boolValue b
  | .int i => .intValue i
  | .double d => .doubleValue d
  | .array vs => .arrayValue (setProtoArrayValue vs)
  | .map es => .mapValue (setProtoMapValue es)

/-- `ProtoHelpers::setProtoArrayValue`. -/
def setProtoArrayValue : List (Value F) → List (ProtoValue F)
  | [] => []
  | elem :: arg => toProto elem :: setProtoArrayValue arg

/-- `ProtoHelpers::setProtoMapValue`. -/
def setProtoMapValue : List (String × Value F) → List (String × ProtoValue F)
  | [] => []
  | (key, value) :: arg => (key, toProto value) :: setProtoMapValue arg

end

/-! ## The decoder -/

/-- `map[key] = value`: the entry of a key that is there is replaced in place. -/
def assign (map : List (String × Value F)) (key : String) (value : Value F) :
    List (String × Value F) :=
  if key ∈ map.map Prod.fst then map.map fun e => if e.1 = key then (key, value) else e
  else map ++ [(key, value)]

/-- `ValueVariant data;`: a variant that nothing was assigned to holds its first alternative. -/
def ValueVariant.unassigned : ValueVariant F := .string ""

/-- `ValueWrapper(const ValueVariant &value, uint64_t timestamp)`: a timestamp of 0 is replaced by
`getTimeMsNow()`. -/
def construct (getTimeMsNow : ℕ) (value : ValueVariant F) (timestamp : ℕ) : Value F :=
  ⟨value, if timestamp = 0 then getTimeMsNow else timestamp, false⟩

mutual

/-- `ProtoSerializable::fromProto`; the clock stands still meanwhile. -/
def fromProto (arrange : List (String × Value F) → List (String × Value F)) (getTimeMsNow timestamp : ℕ) :
    ProtoValue F → Value F
  | .notSet => construct getTimeMsNow .unassigned timestamp
  | .strValue s => construct getTimeMsNow (.string s) timestamp
  | .boolValue b => construct getTimeMsNow (.boolean b) timestamp
  | .intValue i => construct getTimeMsNow (.int i) timestamp
  | .doubleValue d => construct getTimeMsNow (.double d) timestamp
  | .arrayValue values =>
    construct getTimeMsNow (.array (readArray arrange getTimeMsNow timestamp values)) timestamp
  | .mapValue items =>
    construct getTimeMsNow (.map (arrange (readMap arrange getTimeMsNow timestamp items []))) timestamp

/-- The loop over `array_value().values()`. -/
def readArray (arrange : List (String × Value F) → List (String × Value F)) (getTimeMsNow timestamp : ℕ) :
    List (ProtoValue F) → List (Value F)
  | [] => []
  | elem :: values =>
    fromProto arrange getTimeMsNow timestamp elem :: readArray arrange getTimeMsNow timestamp values

/-- The loop over `map_value().items()`, from the map built so far. -/
def readMap (arrange : List (String × Value F) → List (String × Value F)) (getTimeMsNow timestamp : ℕ) :
    List (String × ProtoValue F) → List (String × Value F) → List (String × Value F)
  | [], map => map
  | (key, value) :: items, map => readMap arrange getTimeMsNow timestamp items
      (assign map key (fromProto arrange getTimeMsNow timestamp value))

end

/-! ## The functions on lists -/

/-- The repeated field holds the message of each element. -/
theorem setProtoArrayValue_eq_map (vs : List (Value F)) : setProtoArrayValue vs = vs.map toProto := by
  induction vs with
  | nil => rfl
  | cons v vs ih => simp [setProtoArrayValue, ih]

/-- The items hold the message of each entry, in the order of iteration. -/
theorem setProtoMapValue_eq_map (es : List (String × Value F)) :
    setProtoMapValue es = es.map fun e => (e.1, toProto e.2) := by
  induction es with
  | nil => rfl
  | cons e es ih => simp [setProtoMapValue, ih]

section Reading

variable (arrange : List (String × Value F) → List (String × Value F)) (getTimeMsNow timestamp : ℕ)

/-- The array read holds the value of each element. -/
theorem readArray_eq_map (ps : List (ProtoValue F)) :
    readArray arrange getTimeMsNow timestamp ps = ps.map (fromProto arrange getTimeMsNow timestamp) := by
  induction ps with
  | nil => rfl
  | cons p ps ih => simp [readArray, ih]

/-- Reading items whose keys differ from each other and from those of the map appends one entry
for each. -/
theorem readMap_append (items : List (String × ProtoValue F)) (map : List (String × Value F))
    (hnodup : (map.map Prod.fst ++ items.map Prod.fst).Nodup) : readMap arrange getTimeMsNow timestamp items map =
      map ++ items.map fun e => (e.1, fromProto arrange getTimeMsNow timestamp e.2) := by
  induction items generalizing map with
  | nil => simp [readMap]
  | cons e items ih =>
    obtain ⟨key, value⟩ := e
    have hnew : key ∉ map.map Prod.fst := by
      intro hmem
      exact (List.nodup_append.mp hnodup).2.2 key hmem key (by simp) rfl
    have hassign : assign map key (fromProto arrange getTimeMsNow timestamp value) =
        map ++ [(key, fromProto arrange getTimeMsNow timestamp value)] := if_neg hnew
    rw [readMap, hassign, ih]
    · simp
    · simpa using hnodup

/-- Reading items with distinct keys into an empty map. -/
theorem readMap_eq_map (items : List (String × ProtoValue F)) (hnodup : (items.map Prod.fst).Nodup) :
    readMap arrange getTimeMsNow timestamp items [] = items.map fun e => (e.1, fromProto arrange getTimeMsNow timestamp e.2) := by
  simpa using readMap_append arrange getTimeMsNow timestamp items [] (by simpa using hnodup)

end Reading

/-! ## Equality up to the order of map entries -/

/-- Structural equality of two values: the same alternative, payload, timestamp and flag at every
node, where the entries of a map have no order. -/
inductive Same : Value F → Value F → Prop
  | string (s t d) : Same ⟨.string s, t, d⟩ ⟨.string s, t, d⟩
  | boolean (b t d) : Same ⟨.boolean b, t, d⟩ ⟨.boolean b, t, d⟩
  | int (i t d) : Same ⟨.int i, t, d⟩ ⟨.int i, t, d⟩
  | double (x t d) : Same ⟨.double x, t, d⟩ ⟨.double x, t, d⟩
  | array {vs ws} (t d) : List.Forall₂ Same vs ws → Same ⟨.array vs, t, d⟩ ⟨.array ws, t, d⟩
  | map {es fs} (t d) : (es.map Prod.fst).Perm (fs.map Prod.fst) →
      (∀ e ∈ es, ∀ f ∈ fs, e.1 = f.1 → Same e.2 f.2) → Same ⟨.map es, t, d⟩ ⟨.map fs, t, d⟩

/-- Equality of two messages: the same case and payload at every node, where the items of a map
have no order. -/
inductive SameProto : ProtoValue F → ProtoValue F → Prop
  | notSet : SameProto .notSet .notSet
  | strValue (s) : SameProto (.strValue s) (.strValue s)
  | boolValue (b) : SameProto (.boolValue b) (.boolValue b)
  | intValue (i) : SameProto (.intValue i) (.intValue i)
  | doubleValue (d) : SameProto (.doubleValue d) (.doubleValue d)
  | arrayValue {ps qs} : List.Forall₂ SameProto ps qs → SameProto (.arrayValue ps) (.arrayValue qs)
  | mapValue {es fs} : (es.map Prod.fst).Perm (fs.map Prod.fst) →
      (∀ e ∈ es, ∀ f ∈ fs, e.1 = f.1 → SameProto e.2 f.2) → SameProto (.mapValue es) (.mapValue fs)

/-! ## What the constructors build -/

/-- A value that the constructors of `ValueWrapper` can build: no two entries of a map share a
key, and no node is a tombstone. -/
inductive Built : Value F → Prop
  | string (s t) : Built ⟨.string s, t, false⟩
  | boolean (b t) : Built ⟨.boolean b, t, false⟩
  | int (i t) : Built ⟨.int i, t, false⟩
  | double (x t) : Built ⟨.double x, t, false⟩
  | array {vs} (t) : (∀ v ∈ vs, Built v) → Built ⟨.array vs, t, false⟩
  | map {es} (t) : (es.map Prod.fst).Nodup → (∀ e ∈ es, Built e.2) → Built ⟨.map es, t, false⟩

/-- A message whose `oneof` is set at every node and whose map keys are distinct. -/
inductive ProtoValue.IsSet : ProtoValue F → Prop
  | strValue (s) : IsSet (.strValue s)
  | boolValue (b) : IsSet (.boolValue b)
  | intValue (i) : IsSet (.intValue i)
  | doubleValue (d) : IsSet (.doubleValue d)
  | arrayValue {ps} : (∀ p ∈ ps, IsSet p) → IsSet (.arrayValue ps)
  | mapValue {es} : (es.map Prod.fst).Nodup → (∀ e ∈ es, IsSet e.2) → IsSet (.mapValue es)

mutual

/-- A value with the timestamp `t` at every node. -/
def stamp (t : ℕ) : Value F → Value F
  | ⟨data, _, isDeleted⟩ => ⟨stampVariant t data, t, isDeleted⟩

/-- `stamp` under a node. -/
def stampVariant (t : ℕ) : ValueVariant F → ValueVariant F
  | .string s => .string s
  | .boolean b => .boolean b
  | .int i => .int i
  | .double d => .double d
  | .array vs => .array (stampArray t vs)
  | .map es => .map (stampMap t es)

/-- `stamp` on the elements of an array. -/
def stampArray (t : ℕ) : List (Value F) → List (Value F)
  | [] => []
  | v :: vs => stamp t v :: stampArray t vs

/-- `stamp` on the entries of a map. -/
def stampMap (t : ℕ) : List (String × Value F) → List (String × Value F)
  | [] => []
  | (key, value) :: es => (key, stamp t value) :: stampMap t es

end

theorem stampArray_eq_map (t : ℕ) (vs : List (Value F)) : stampArray t vs = vs.map (stamp t) := by
  induction vs with
  | nil => rfl
  | cons v vs ih => simp [stampArray, ih]

theorem stampMap_eq_map (t : ℕ) (es : List (String × Value F)) :
    stampMap t es = es.map fun e => (e.1, stamp t e.2) := by
  induction es with
  | nil => rfl
  | cons e es ih => simp [stampMap, ih]

/-! ## The round trips -/

/-- The order of iteration of a hash map is some order of its entries. -/
def Arranges (arrange : List (String × Value F) → List (String × Value F)) : Prop :=
  ∀ es, (arrange es).Perm es

section RoundTrip

variable {arrange : List (String × Value F) → List (String × Value F)} (getTimeMsNow : ℕ)

theorem construct_of_ne {t : ℕ} (ht : t ≠ 0) (data : ValueVariant F) :
    construct getTimeMsNow data t = ⟨data, t, false⟩ := by
  rw [construct, if_neg ht]

/-- Decoding what was encoded gives the value back, with the timestamp given to the decoder. -/
theorem fromProto_toProto (harrange : Arranges arrange) {t : ℕ} (ht : t ≠ 0) {v : Value F} (hv : Built v) :
    Same (fromProto arrange getTimeMsNow t (toProto v)) (stamp t v) := by
  induction hv with
  | string s _ =>
    rw [toProto, visit, fromProto, construct_of_ne getTimeMsNow ht]
    exact .string s t false
  | boolean b _ =>
    rw [toProto, visit, fromProto, construct_of_ne getTimeMsNow ht]
    exact .boolean b t false
  | int i _ =>
    rw [toProto, visit, fromProto, construct_of_ne getTimeMsNow ht]
    exact .int i t false
  | double x _ =>
    rw [toProto, visit, fromProto, construct_of_ne getTimeMsNow ht]
    exact .double x t false
  | @array vs _ _ ih =>
    rw [toProto, visit, fromProto, construct_of_ne getTimeMsNow ht]
    refine .array t false ?_
    rw [setProtoArrayValue_eq_map, readArray_eq_map, stampArray_eq_map, List.map_map,
      List.forall₂_map_left_iff, List.forall₂_map_right_iff]
    exact List.forall₂_same.mpr ih
  | @map es _ hnodup _ ih =>
    have hread : readMap arrange getTimeMsNow t (setProtoMapValue es) [] =
        es.map fun e => (e.1, fromProto arrange getTimeMsNow t (toProto e.2)) := by
      rw [setProtoMapValue_eq_map, readMap_eq_map]
      · simp [Function.comp_def]
      · simpa [Function.comp_def] using hnodup
    have hperm := harrange (es.map fun e => (e.1, fromProto arrange getTimeMsNow t (toProto e.2)))
    rw [toProto, visit, fromProto, construct_of_ne getTimeMsNow ht]
    refine .map t false ?_ ?_
    · rw [hread, stampMap_eq_map]
      simpa [Function.comp_def] using hperm.map Prod.fst
    · rw [hread, stampMap_eq_map]
      intro e he f hf hkey
      obtain ⟨e₀, he₀, rfl⟩ := List.mem_map.mp (hperm.mem_iff.mp he)
      obtain ⟨f₀, hf₀, rfl⟩ := List.mem_map.mp hf
      have heq : e₀ = f₀ := List.inj_on_of_nodup_map hnodup he₀ hf₀ hkey
      exact heq ▸ ih e₀ he₀

/-- Encoding what was decoded gives the message back. -/
theorem toProto_fromProto (harrange : Arranges arrange) (t : ℕ) {p : ProtoValue F}
    (hp : p.IsSet) : SameProto (toProto (fromProto arrange getTimeMsNow t p)) p := by
  induction hp with
  | strValue s => exact .strValue s
  | boolValue b => exact .boolValue b
  | intValue i => exact .intValue i
  | doubleValue d => exact .doubleValue d
  | @arrayValue ps _ ih =>
    refine .arrayValue ?_
    rw [readArray_eq_map, setProtoArrayValue_eq_map, List.map_map, List.forall₂_map_left_iff]
    exact List.forall₂_same.mpr ih
  | @mapValue es hnodup _ ih =>
    have hperm := harrange (es.map fun e => (e.1, fromProto arrange getTimeMsNow t e.2))
    refine .mapValue ?_ ?_
    · rw [readMap_eq_map _ _ _ _ hnodup, setProtoMapValue_eq_map]
      simpa [Function.comp_def] using hperm.map Prod.fst
    · rw [readMap_eq_map _ _ _ _ hnodup, setProtoMapValue_eq_map]
      intro e he f hf hkey
      obtain ⟨g, hg, rfl⟩ := List.mem_map.mp he
      obtain ⟨e₀, he₀, rfl⟩ := List.mem_map.mp (hperm.mem_iff.mp hg)
      have heq : e₀ = f := List.inj_on_of_nodup_map hnodup he₀ hf hkey
      exact heq ▸ ih e₀ he₀

/-- **A value survives the protobuf form.** Whatever order the hash maps iterate in, decoding an
encoded value with a timestamp that is not 0 gives the same value with this timestamp at every node,
and encoding a decoded message gives the same message. -/
theorem proto_roundTrip (harrange : Arranges arrange) :
    (∀ t ≠ 0, ∀ v : Value F, Built v →
      Same (fromProto arrange getTimeMsNow t (toProto v)) (stamp t v)) ∧
      ∀ t, ∀ p : ProtoValue F, p.IsSet → SameProto (toProto (fromProto arrange getTimeMsNow t p)) p :=
  ⟨fun _ ht _ hv => fromProto_toProto getTimeMsNow harrange ht hv,
    fun t _ hp => toProto_fromProto getTimeMsNow harrange t hp⟩

end RoundTrip

/-- A map with an empty map, and an array with an empty array, under two keys. -/
def nested : Value ℕ :=
  ⟨.map [("kills", ⟨.map [], 3, false⟩),
    ("spots", ⟨.array [⟨.array [], 1, false⟩, ⟨.int 7, 2, false⟩], 5, false⟩)], 4, false⟩

/-- The constructors can build `nested`. -/
theorem built_nested : Built nested := by
  refine .map 4 (by decide) ?_
  simp only [List.mem_cons, List.not_mem_nil, or_false, forall_eq_or_imp, forall_eq]
  refine ⟨.map 3 (by decide) (by simp), .array 5 ?_⟩
  simp only [List.mem_cons, List.not_mem_nil, or_false, forall_eq_or_imp, forall_eq]
  exact ⟨.array 1 (by simp), .int 7 2⟩

/-- The round trip of `nested`, with hash maps that iterate backwards. -/
theorem proto_roundTrip_nested :
    Same (fromProto List.reverse 100 9 (toProto nested)) (stamp 9 nested) :=
  (proto_roundTrip 100 List.reverse_perm).1 9 (by decide) nested built_nested

/-- With the timestamp 0 the decoder takes the time of the clock. -/
theorem not_proto_roundTrip_zero :
    Built (F := ℕ) ⟨.int 7, 3, false⟩ ∧
      ¬ Same (F := ℕ) (fromProto id 100 0 (toProto ⟨.int 7, 3, false⟩)) (stamp 0 ⟨.int 7, 3, false⟩) := by
  refine ⟨.int 7 3, fun h => ?_⟩
  have htime : (fromProto (F := ℕ) id 100 0 (toProto ⟨.int 7, 3, false⟩)).timestamp = 0 := by
    generalize hv : stamp 0 _ = v at h
    rw [stamp] at hv
    subst hv
    cases h
  exact absurd htime (by decide)

end TiabloServer.KV
