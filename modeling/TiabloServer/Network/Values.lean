import TiabloServer.Lib.Runs
import TiabloServer.Network.Message

/-!
# Values in network messages

The writers of `NetworkMessage` (`server/network/message/networkmessage.hpp`): each of them refuses
a value that does not fit and says nothing. A string is tested as a whole; a position and a double
are written in parts, each with a test of its own.

## Main definitions

* `Network.Whole` — a value is not written in the last bytes, where only a part of it fits.
* `Network.CodecOk` — what a list of writes leaves can be read back and has no half-written values.

## Main results

* `Network.Value.read_of_slice` — what is written is read.
* `Network.codecOk_iff` — a list of writes is so if and only if its values are written as a whole.
-/

namespace TiabloServer.Network

open Memory (slice store)

/-! ## The writers of the source -/

namespace NetworkMessage

/-- An empty message, in memory with any content. -/
def empty (memory : ℕ → UInt8) : NetworkMessage := ⟨0, INITIAL_BUFFER_POSITION, false, memory, []⟩

variable (msg : NetworkMessage)

/-- Whether `canAdd` is true. -/
def CanAdd (size : ℕ) : Prop := size + msg.position < MAX_BODY_LENGTH

instance (size : ℕ) : Decidable (msg.CanAdd size) := inferInstanceAs (Decidable (_ < _))

/-- Copies bytes to the position, which moves behind them. -/
def put (bytes : List UInt8) : NetworkMessage :=
  { msg with
    buffer := store msg.buffer msg.position bytes
    position := msgSize (msg.position + bytes.length)
    length := msgSize (msg.length + bytes.length) }

def addByte (value : UInt8) : NetworkMessage := if msg.CanAdd 1 then msg.put [value] else msg

/-- `add<T>` for a number of `size` bytes. -/
def add (size value : ℕ) : NetworkMessage :=
  if msg.CanAdd size then msg.put (Wire.leBytes size value) else msg

def addString (value : List UInt8) : NetworkMessage :=
  if ¬ msg.CanAdd (value.length + 2) then msg
  else if value.length > NETWORKMESSAGE_MAXSIZE then msg
  else (msg.add 2 value.length).put value

/-- `addDouble`, of a value that is scaled and converted to 32 bits. -/
def addDouble (scaled : UInt32) (precision : UInt8) : NetworkMessage :=
  (msg.addByte precision).add 4 scaled.toNat

def addPosition (x y : UInt16) (z : UInt8) : NetworkMessage :=
  ((msg.add 2 x.toNat).add 2 y.toNat).addByte z

end NetworkMessage

/-! ## Values -/

/-- A value that is written and read. -/
inductive Value where
  | u8 (value : UInt8)
  | u16 (value : UInt16)
  | u32 (value : UInt32)
  | u64 (value : UInt64)
  | string (value : List UInt8)
  | position (x y : UInt16) (z : UInt8)
  deriving DecidableEq

/-- What is written: a value, or a double, which no reader is for. -/
inductive Item (F : Type*) where
  | value (value : Value)
  | double (value : F) (precision : UInt8)

/-- The bytes of a value. -/
def Value.bytes : Value → List UInt8
  | .u8 value => [value]
  | .u16 value => Wire.leBytes 2 value.toNat
  | .u32 value => Wire.leBytes 4 value.toNat
  | .u64 value => Wire.leBytes 8 value.toNat
  | .string value => Wire.leBytes 2 value.length ++ value
  | .position x y z => Wire.leBytes 2 x.toNat ++ Wire.leBytes 2 y.toNat ++ [z]

section Writes

variable {F : Type*} (scale : F → UInt8 → UInt32)

/-- The bytes of what is written. -/
def Item.bytes : Item F → List UInt8
  | .value v => v.bytes
  | .double x precision => precision :: Wire.leBytes 4 (scale x precision).toNat

/-- Writes a value. -/
def Value.write (msg : NetworkMessage) : Value → NetworkMessage
  | .u8 value => msg.addByte value
  | .u16 value => msg.add 2 value.toNat
  | .u32 value => msg.add 4 value.toNat
  | .u64 value => msg.add 8 value.toNat
  | .string value => msg.addString value
  | .position x y z => msg.addPosition x y z

/-- Writes a value or a double. -/
def write (msg : NetworkMessage) : Item F → NetworkMessage
  | .value value => value.write msg
  | .double value precision => msg.addDouble (scale value precision) precision

/-- Reads a value of the type of another one. -/
def Value.read (msg : NetworkMessage) : Value → Value × NetworkMessage
  | .u8 _ => ((.u8 (UInt8.ofNat (msg.get 1).1)), (msg.get 1).2)
  | .u16 _ => ((.u16 (UInt16.ofNat (msg.get 2).1)), (msg.get 2).2)
  | .u32 _ => ((.u32 (UInt32.ofNat (msg.get 4).1)), (msg.get 4).2)
  | .u64 _ => ((.u64 (UInt64.ofNat (msg.get 8).1)), (msg.get 8).2)
  | .string _ => (.string (msg.getString 0).1, (msg.getString 0).2)
  | .position _ _ _ =>
    let (pos, msg) := msg.getPosition
    (.position (UInt16.ofNat pos.1) (UInt16.ofNat pos.2.1) (UInt8.ofNat pos.2.2), msg)

/-- Reads values of the types of others, one after the other. -/
def readAll (msg : NetworkMessage) : List Value → List Value × NetworkMessage
  | [] => ([], msg)
  | value :: values =>
    let (result, msg) := value.read msg
    let (results, msg) := readAll msg values
    (result :: results, msg)

/-- A write is made completely or not at all. -/
def AllOrNothing (msg : NetworkMessage) (item : Item F) : Prop :=
  write scale msg item = msg ∨ write scale msg item = msg.put (item.bytes scale)

/-- No position and no double is written where a part of it fits and not all of it. -/
def Whole (msg : NetworkMessage) : Item F → Prop
  | .value (.position _ _ _) => msg.CanAdd 5 ∨ ¬ msg.CanAdd 1
  | .double _ _ => msg.CanAdd 5 ∨ ¬ msg.CanAdd 1
  | _ => True

/-- A string that is not empty, or another value. -/
def Value.NotEmpty : Value → Prop
  | .string value => value ≠ []
  | _ => True

/-- Values that fit into an empty message. -/
def ValuesFit (values : List Value) : Prop :=
  INITIAL_BUFFER_POSITION + (values.flatMap Value.bytes).length < MAX_BODY_LENGTH

/-- What writes to an empty message come to: values that fit are read back, no value is written in
part, the length is that of what is written, and nothing is written from `MAX_BODY_LENGTH` on. -/
structure CodecOk (memory : ℕ → UInt8) (items : List (Item F)) : Prop where
  roundTrip : ∀ values : List Value, items = values.map .value → (∀ v ∈ values, v.NotEmpty) →
    ValuesFit values →
      let msg := Runs.run (write scale) (.empty memory) items
      let start := { msg with position := INITIAL_BUFFER_POSITION }
      (readAll start values).1 = values ∧ (readAll start values).2.overrun = false ∧
        (readAll start values).2.position = msg.position
  allOrNothing : Runs.Meets (write scale) (AllOrNothing scale) (.empty memory) items
  length : ∀ l, l <+: items →
    let msg := Runs.run (write scale) (.empty memory) l
    msg.length + INITIAL_BUFFER_POSITION = msg.position
  untouched : ∀ l, l <+: items → ∀ k, MAX_BODY_LENGTH ≤ k →
    (Runs.run (write scale) (.empty memory) l).buffer k = memory k

end Writes

/-! ## Writing -/

section Writing

variable {msg : NetworkMessage}

theorem maxBodyLength_eq : MAX_BODY_LENGTH = 65486 := rfl

namespace NetworkMessage

/-- What is put in two parts is put as a whole. -/
theorem put_put {a b : List UInt8} (hpos : msg.position + a.length + b.length < 65536)
    (hlength : msg.length + a.length + b.length < 65536) : (msg.put a).put b = msg.put (a ++ b) := by
  have hpos' : msgSize ((msg.position : ℤ) + a.length) = msg.position + a.length :=
    msgSize_add (by omega)
  have hlength' : msgSize ((msg.length : ℤ) + a.length) = msg.length + a.length :=
    msgSize_add (by omega)
  simp only [put, hpos', hlength', Memory.store_store, List.length_append, Nat.cast_add, add_assoc]

/-- A message as the writers leave it. -/
structure Tidy (msg : NetworkMessage) : Prop where
  length : msg.length + INITIAL_BUFFER_POSITION = msg.position
  lt : msg.position < MAX_BODY_LENGTH

theorem tidy_empty (memory : ℕ → UInt8) : (empty memory).Tidy := ⟨rfl, show INITIAL_BUFFER_POSITION < MAX_BODY_LENGTH by decide⟩

theorem Tidy.lengths (h : msg.Tidy) {n : ℕ} (hadd : msg.CanAdd n) :
    msgSize ((msg.position : ℤ) + n) = msg.position + n ∧ msgSize ((msg.length : ℤ) + n) = msg.length + n := by
  have hlength := h.length
  rw [CanAdd, maxBodyLength_eq] at hadd
  exact ⟨msgSize_add (by omega), msgSize_add (by omega)⟩

theorem length_put (h : msg.Tidy) {bytes : List UInt8} (hadd : msg.CanAdd bytes.length) :
    (msg.put bytes).length = msg.length + bytes.length := (h.lengths hadd).2

theorem position_put (h : msg.Tidy) {bytes : List UInt8} (hadd : msg.CanAdd bytes.length) :
    (msg.put bytes).position = msg.position + bytes.length := (h.lengths hadd).1

/-- Putting what fits leaves a tidy message. -/
theorem Tidy.put (h : msg.Tidy) {bytes : List UInt8} (hadd : msg.CanAdd bytes.length) : (msg.put bytes).Tidy := by
  refine ⟨?_, ?_⟩
  · rw [length_put h hadd, position_put h hadd, ← h.length]
    omega
  · rw [position_put h hadd]
    rw [CanAdd] at hadd
    omega

/-- Putting what fits leaves the buffer from `MAX_BODY_LENGTH` on. -/
theorem buffer_put {bytes : List UInt8} (hadd : msg.CanAdd bytes.length) {k : ℕ}
    (hk : MAX_BODY_LENGTH ≤ k) : (msg.put bytes).buffer k = msg.buffer k := by
  rw [CanAdd] at hadd
  exact Memory.store_apply_of_outside _ (Or.inr (by omega))

theorem canAdd_put (h : msg.Tidy) {a : List UInt8} (hadd : msg.CanAdd a.length) {n : ℕ} :
    (msg.put a).CanAdd n ↔ msg.CanAdd (a.length + n) := by
  rw [CanAdd, CanAdd, position_put h hadd]
  omega

/-- What fits in two parts is put as a whole. -/
theorem put_put_of_canAdd (h : msg.Tidy) {a b : List UInt8} (hadd : msg.CanAdd (a ++ b).length) :
    (msg.put a).put b = msg.put (a ++ b) := by
  have hlength := h.length
  rw [CanAdd, List.length_append, maxBodyLength_eq] at hadd
  exact put_put (by omega) (by omega)

theorem add_of_canAdd {size value : ℕ} (hadd : msg.CanAdd size) :
    msg.add size value = msg.put (Wire.leBytes size value) := if_pos hadd

theorem add_of_not_canAdd {size value : ℕ} (hadd : ¬ msg.CanAdd size) : msg.add size value = msg :=
  if_neg hadd

end NetworkMessage

section Items

variable {F : Type*} {scale : F → UInt8 → UInt32} {memory : ℕ → UInt8}

open NetworkMessage

/-- A value that fits is written completely. -/
theorem Value.write_eq_put (h : msg.Tidy) (v : Value) (hadd : msg.CanAdd v.bytes.length) :
    v.write msg = msg.put v.bytes := by
  cases v with
  | u8 value => exact if_pos hadd
  | u16 value => exact if_pos (by simpa [Value.bytes] using hadd)
  | u32 value => exact if_pos (by simpa [Value.bytes] using hadd)
  | u64 value => exact if_pos (by simpa [Value.bytes] using hadd)
  | string value =>
    have htwo : msg.CanAdd (Wire.leBytes 2 value.length).length := by
      simp only [Value.bytes, CanAdd, List.length_append, Wire.length_leBytes] at hadd ⊢
      omega
    have hall : msg.CanAdd (value.length + 2) := by
      simp only [Value.bytes, CanAdd, List.length_append, Wire.length_leBytes] at hadd ⊢
      omega
    have hmax : ¬ value.length > NETWORKMESSAGE_MAXSIZE := by
      rw [CanAdd, maxBodyLength_eq] at hall
      rw [NETWORKMESSAGE_MAXSIZE]
      omega
    rw [Value.write, addString, if_neg (not_not.2 hall), if_neg hmax,
      add_of_canAdd (by simpa using htwo), put_put_of_canAdd h hadd, Value.bytes]
  | position x y z =>
    have hfive : msg.CanAdd 5 := by simpa [Value.bytes] using hadd
    have htwo : msg.CanAdd 2 := by
      rw [CanAdd] at hfive ⊢
      omega
    have hput : msg.CanAdd (Wire.leBytes 2 x.toNat).length := by simpa using htwo
    have hfour : msg.CanAdd (Wire.leBytes 2 x.toNat ++ Wire.leBytes 2 y.toNat).length := by
      simp only [CanAdd, List.length_append, Wire.length_leBytes] at hfive ⊢
      omega
    have hy : (msg.put (Wire.leBytes 2 x.toNat)).CanAdd 2 := by
      rw [canAdd_put h hput]
      simpa using hfour
    have hz : (msg.put (Wire.leBytes 2 x.toNat ++ Wire.leBytes 2 y.toNat)).CanAdd 1 := by
      rw [canAdd_put h hfour]
      simpa using hfive
    rw [Value.write, addPosition, add_of_canAdd htwo, add_of_canAdd hy, put_put_of_canAdd h hfour,
      addByte, if_pos hz, put_put_of_canAdd h hadd, Value.bytes]

theorem double_eq_put (h : msg.Tidy) (scaled : UInt32) (precision : UInt8) (hfive : msg.CanAdd 5) :
    msg.addDouble scaled precision = msg.put (precision :: Wire.leBytes 4 scaled.toNat) := by
  have hone : msg.CanAdd 1 := by
    rw [CanAdd] at hfive ⊢
    omega
  have hfour : (msg.put [precision]).CanAdd 4 := by
    rw [canAdd_put h (by simpa using hone)]
    exact hfive
  rw [addDouble, addByte, if_pos hone, add_of_canAdd hfour, put_put_of_canAdd h (by simpa using hfive)]
  rfl

/-! ### What a write can do -/

theorem put_nil (h : msg.Tidy) : msg.put [] = msg := by
  obtain ⟨hpos, hlength⟩ := h.lengths (n := 0) (by rw [CanAdd, Nat.zero_add]; exact h.lt)
  simp only [put, Memory.store_nil, List.length_nil, hpos, hlength, Nat.add_zero]

/-- A message that has become another one by putting bytes that fit. -/
def Puts (msg msg' : NetworkMessage) : Prop := ∃ bytes, msg.CanAdd bytes.length ∧ msg' = msg.put bytes

theorem Puts.refl (h : msg.Tidy) : Puts msg msg :=
  ⟨[], by rw [CanAdd, List.length_nil, Nat.zero_add]; exact h.lt, (put_nil h).symm⟩

theorem Puts.tidy {msg' : NetworkMessage} (hputs : Puts msg msg') (h : msg.Tidy) : msg'.Tidy := by
  obtain ⟨bytes, hadd, rfl⟩ := hputs
  exact h.put hadd

theorem Puts.position_le {msg' : NetworkMessage} (hputs : Puts msg msg') (h : msg.Tidy) :
    msg.position ≤ msg'.position := by
  obtain ⟨bytes, hadd, rfl⟩ := hputs
  rw [position_put h hadd]
  exact Nat.le_add_right _ _

theorem Puts.trans {msg' msg'' : NetworkMessage} (h : msg.Tidy) (h₁ : Puts msg msg')
    (h₂ : Puts msg' msg'') : Puts msg msg'' := by
  obtain ⟨a, ha, rfl⟩ := h₁
  obtain ⟨b, hb, rfl⟩ := h₂
  rw [canAdd_put h ha, ← List.length_append] at hb
  exact ⟨a ++ b, hb, put_put_of_canAdd h hb⟩

theorem puts_add (h : msg.Tidy) (size value : ℕ) : Puts msg (msg.add size value) := by
  by_cases hadd : msg.CanAdd size
  · exact ⟨Wire.leBytes size value, by simpa using hadd, if_pos hadd⟩
  · rw [add_of_not_canAdd hadd]
    exact .refl h

theorem puts_addByte (h : msg.Tidy) (value : UInt8) : Puts msg (msg.addByte value) := by
  by_cases hadd : msg.CanAdd 1
  · exact ⟨[value], by simpa using hadd, if_pos hadd⟩
  · rw [addByte, if_neg hadd]
    exact .refl h

theorem puts_addPosition (h : msg.Tidy) (x y : UInt16) (z : UInt8) : Puts msg (msg.addPosition x y z) := by
  have hx := puts_add h 2 x.toNat
  have hy := puts_add (hx.tidy h) 2 y.toNat
  have hz := puts_addByte (hy.tidy (hx.tidy h)) z
  exact (hx.trans h hy).trans h hz

theorem puts_addDouble (h : msg.Tidy) (scaled : UInt32) (precision : UInt8) :
    Puts msg (msg.addDouble scaled precision) := by
  have hprecision := puts_addByte h precision
  exact hprecision.trans h (puts_add (hprecision.tidy h) 4 scaled.toNat)

/-- A string is written completely or not at all. -/
theorem addString_eq (value : List UInt8) :
    msg.addString value = msg ∨ msg.CanAdd (Value.string value).bytes.length := by
  by_cases hadd : msg.CanAdd (value.length + 2)
  · refine Or.inr ?_
    simp only [Value.bytes, CanAdd, List.length_append, Wire.length_leBytes] at hadd ⊢
    omega
  · exact Or.inl (by rw [addString, if_pos hadd])

/-- **All a write can do**: it puts bytes that fit. -/
theorem puts_write (h : msg.Tidy) (item : Item F) : Puts msg (write scale msg item) := by
  cases item with
  | double x precision => exact puts_addDouble h _ _
  | value v =>
    cases v with
    | u8 value => exact puts_addByte h value
    | u16 value => exact puts_add h 2 _
    | u32 value => exact puts_add h 4 _
    | u64 value => exact puts_add h 8 _
    | string value =>
      rcases addString_eq value with hsame | hadd
      · rw [show write scale msg (.value (.string value)) = msg from hsame]
        exact .refl h
      · exact ⟨_, hadd, Value.write_eq_put h (.string value) hadd⟩
    | position x y z => exact puts_addPosition h x y z

/-! ### Completely or not at all -/

/-- A write of five bytes that has put some of them, where they do not all fit. -/
theorem not_allOrNothing (h : msg.Tidy) {item : Item F} (hfive : ¬ msg.CanAdd 5)
    (hlength : (item.bytes scale).length = 5) (hlt : msg.position < (write scale msg item).position) :
    ¬ AllOrNothing scale msg item := by
  rintro (hnothing | hall)
  · rw [hnothing] at hlt
    exact hlt.false
  · have hend : (write scale msg item).position < MAX_BODY_LENGTH := ((puts_write h item).tidy h).lt
    have hpos : (msg.put (item.bytes scale)).position = msg.position + 5 := by
      have hmsg := h.lt
      rw [maxBodyLength_eq] at hmsg
      rw [← hlength]
      exact msgSize_add (by omega)
    rw [hall, hpos] at hend
    rw [CanAdd] at hfive
    omega

/-- A number is written completely or not at all. -/
theorem add_allOrNothing (size value : ℕ) :
    msg.add size value = msg ∨ msg.add size value = msg.put (Wire.leBytes size value) := by
  rw [add]
  split_ifs
  · exact Or.inr rfl
  · exact Or.inl rfl

theorem position_addByte (h : msg.Tidy) (hone : msg.CanAdd 1) (value : UInt8) :
    (msg.addByte value).position = msg.position + 1 := by
  rw [addByte, if_pos hone]
  exact position_put h (by simpa using hone)

/-- **A write is made completely or not at all** if and only if no position and no double is written
where only a part of it fits. -/
theorem writesWhole_iff (h : msg.Tidy) (item : Item F) : AllOrNothing scale msg item ↔ Whole msg item := by
  cases item with
  | double x precision =>
    by_cases hfive : msg.CanAdd 5
    · exact iff_of_true (Or.inr (double_eq_put h _ _ hfive)) (Or.inl hfive)
    · by_cases hone : msg.CanAdd 1
      · refine iff_of_false (not_allOrNothing h hfive (by simp [Item.bytes]) ?_) (by simp [Whole, hfive, hone])
        have hbyte := puts_addByte h precision
        have hle := (puts_add (hbyte.tidy h) 4 (scale x precision).toNat).position_le (hbyte.tidy h)
        rw [position_addByte h hone] at hle
        exact hle
      · refine iff_of_true (Or.inl ?_) (Or.inr hone)
        have hfour : ¬ msg.CanAdd 4 := by
          rw [CanAdd] at hone ⊢
          omega
        rw [write, addDouble, addByte, if_neg hone, add_of_not_canAdd hfour]
  | value v =>
    cases v with
    | u8 value =>
      refine iff_of_true ?_ trivial
      by_cases hone : msg.CanAdd 1
      · exact Or.inr (if_pos hone)
      · exact Or.inl (if_neg hone)
    | u16 value => exact iff_of_true (add_allOrNothing 2 _) trivial
    | u32 value => exact iff_of_true (add_allOrNothing 4 _) trivial
    | u64 value => exact iff_of_true (add_allOrNothing 8 _) trivial
    | string value =>
      refine iff_of_true ?_ trivial
      rcases addString_eq value with hsame | hadd
      · exact Or.inl hsame
      · exact Or.inr (Value.write_eq_put h (.string value) hadd)
    | position x y z =>
      by_cases hfive : msg.CanAdd 5
      · have hadd : msg.CanAdd (Value.position x y z).bytes.length := by
          simpa [Value.bytes] using hfive
        exact iff_of_true (Or.inr (Value.write_eq_put h (.position x y z) hadd)) (Or.inl hfive)
      · by_cases hone : msg.CanAdd 1
        · refine iff_of_false (not_allOrNothing h hfive (by simp [Item.bytes, Value.bytes]) ?_)
            (by simp [Whole, hfive, hone])
          have hx := puts_add h 2 x.toNat
          have hy := puts_add (hx.tidy h) 2 y.toNat
          have hz := puts_addByte (hy.tidy (hx.tidy h)) z
          by_cases htwo : msg.CanAdd 2
          · have hlex : msg.position < (msg.add 2 x.toNat).position := by
              rw [add_of_canAdd htwo, position_put h (by simpa using htwo), Wire.length_leBytes]
              omega
            exact hlex.trans_le ((hy.position_le (hx.tidy h)).trans
              (hz.position_le (hy.tidy (hx.tidy h))))
          · rw [write, Value.write, addPosition, add_of_not_canAdd htwo, add_of_not_canAdd htwo,
              position_addByte h hone]
            exact Nat.lt_succ_self _
        · refine iff_of_true (Or.inl ?_) (Or.inr hone)
          have htwo : ¬ msg.CanAdd 2 := by
            rw [CanAdd] at hone ⊢
            omega
          rw [write, Value.write, addPosition, add_of_not_canAdd htwo, add_of_not_canAdd htwo, addByte,
            if_neg hone]

/-! ### Runs -/

theorem tidy_step (h : msg.Tidy) (item : Item F) : (write scale msg item).Tidy :=
  (puts_write h item).tidy h

/-- Values that fit are put one behind the other. -/
theorem run_write_eq_put (h : msg.Tidy) (values : List Value)
    (hadd : msg.CanAdd (values.flatMap Value.bytes).length) :
    Runs.run (write scale) msg (values.map .value) = msg.put (values.flatMap Value.bytes) := by
  induction values generalizing msg with
  | nil => exact (put_nil h).symm
  | cons v values ih =>
    rw [List.flatMap_cons] at hadd ⊢
    have hv : msg.CanAdd v.bytes.length := by
      rw [CanAdd, List.length_append] at hadd
      rw [CanAdd]
      omega
    rw [List.map_cons, Runs.run_cons, write, Value.write_eq_put h v hv, ih (h.put hv),
      put_put_of_canAdd h hadd]
    rw [canAdd_put h hv, ← List.length_append]
    exact hadd

/-- No write changes the buffer from `MAX_BODY_LENGTH` on. -/
theorem run_untouched (h : msg.Tidy) (items : List (Item F)) {k : ℕ} (hk : MAX_BODY_LENGTH ≤ k) :
    (Runs.run (write scale) msg items).buffer k = msg.buffer k := by
  induction items generalizing msg with
  | nil => rfl
  | cons item items ih =>
    rw [Runs.run_cons, ih (tidy_step h item)]
    obtain ⟨bytes, hadd, heq⟩ : Puts msg (write scale msg item) := puts_write h item
    rw [heq, buffer_put hadd hk]

/-- A run writes all of its values completely or not at all if and only if it has no position and no
double of which only a part fits. -/
theorem meets_allOrNothing_iff (h : msg.Tidy) (items : List (Item F)) :
    Runs.Meets (write scale) (AllOrNothing scale) msg items ↔ Runs.Meets (write scale) Whole msg items := by
  induction items generalizing msg with
  | nil => exact Iff.rfl
  | cons item items ih =>
    exact and_congr (writesWhole_iff h item) (ih (tidy_step h item))

end Items

end Writing

/-! ## Reading -/

section Reading

variable {msg : NetworkMessage} {bytes rest : List UInt8}

/-- The bytes at the position of a message, which may be read. -/
structure Holds (msg : NetworkMessage) (bytes : List UInt8) : Prop where
  slice : slice msg.buffer msg.position bytes.length = bytes
  length : msg.position + bytes.length ≤ msg.length + INITIAL_BUFFER_POSITION
  lt : msg.position + bytes.length < NETWORKMESSAGE_MAXSIZE

/-- A message after `n` bytes have been read. -/
structure Advances (msg : NetworkMessage) (n : ℕ) (msg' : NetworkMessage) : Prop where
  buffer : msg'.buffer = msg.buffer
  length : msg'.length = msg.length
  overrun : msg'.overrun = msg.overrun
  position : msg'.position = msg.position + n

theorem Advances.trans {msg' msg'' : NetworkMessage} {m n : ℕ} (h : Advances msg m msg')
    (h' : Advances msg' n msg'') : Advances msg (m + n) msg'' :=
  ⟨h'.buffer.trans h.buffer, h'.length.trans h.length, h'.overrun.trans h.overrun,
    by rw [h'.position, h.position, Nat.add_assoc]⟩

theorem Holds.advances {msg' : NetworkMessage} (h : Holds msg (bytes ++ rest))
    (hadv : Advances msg bytes.length msg') : Holds msg' rest := by
  obtain ⟨hslice, hlength, hlt⟩ := h
  rw [List.length_append] at hslice hlength hlt
  rw [Memory.slice_add] at hslice
  have hrest := (List.append_inj hslice (by simp)).2
  refine ⟨?_, ?_, ?_⟩
  · rw [hadv.buffer, hadv.position, hrest]
  · rw [hadv.position, hadv.length]
    omega
  · rw [hadv.position]
    omega

/-- Bytes that are there are read. -/
theorem readBytes_of_holds (h : Holds msg (bytes ++ rest)) {n : ℕ} (hn : bytes.length = n) :
    ∃ msg', msg.readBytes n = (some bytes, msg') ∧ Advances msg n msg' := by
  subst hn
  obtain ⟨hslice, hlength, hlt⟩ := h
  rw [List.length_append] at hslice hlength hlt
  rw [Memory.slice_add] at hslice
  rw [INITIAL_BUFFER_POSITION] at hlength
  have hcan : msg.CanRead bytes.length := by
    rw [NetworkMessage.CanRead]
    omega
  refine ⟨{ msg.touch msg.position bytes.length with
    position := msgSize (msg.position + bytes.length) }, ?_, rfl, rfl, rfl, ?_⟩
  · rw [NetworkMessage.readBytes, if_pos hcan, (List.append_inj hslice (by simp)).1]
  · rw [NETWORKMESSAGE_MAXSIZE] at hlt
    exact msgSize_add (by omega)

theorem get_of_holds (h : Holds msg (bytes ++ rest)) {n : ℕ} (hn : bytes.length = n) :
    ∃ msg', msg.get n = (Wire.ofLE bytes, msg') ∧ Advances msg n msg' ∧ Holds msg' rest := by
  obtain ⟨msg', hread, hadv⟩ := readBytes_of_holds h hn
  exact ⟨msg', by simp [NetworkMessage.get, hread], hadv, h.advances (hn ▸ hadv)⟩

/-- A number that is there is read. -/
theorem get_leBytes {n x : ℕ} (hx : x < 256 ^ n) (h : Holds msg (Wire.leBytes n x ++ rest)) :
    ∃ msg', msg.get n = (x, msg') ∧ Advances msg n msg' ∧ Holds msg' rest := by
  obtain ⟨msg', hget, hadv, hrest⟩ := get_of_holds h (Wire.length_leBytes n x)
  rw [Wire.ofLE_leBytes, Nat.mod_eq_of_lt hx] at hget
  exact ⟨msg', hget, hadv, hrest⟩

/-- **What is written is read**: a value of which the bytes are there. -/
theorem Value.read_of_holds (v : Value) (hne : v.NotEmpty) (h : Holds msg (v.bytes ++ rest)) :
    ∃ msg', v.read msg = (v, msg') ∧ Advances msg v.bytes.length msg' ∧ Holds msg' rest := by
  cases v with
  | u8 value =>
    obtain ⟨msg', hget, hadv, hrest⟩ := get_of_holds (n := 1) h rfl
    refine ⟨msg', ?_, hadv, hrest⟩
    simp [Value.read, hget, Value.bytes, Wire.ofLE]
  | u16 value =>
    obtain ⟨msg', hget, hadv, hrest⟩ := get_leBytes (n := 2) value.toNat_lt h
    refine ⟨msg', ?_, by simpa [Value.bytes] using hadv, hrest⟩
    simp [Value.read, hget]
  | u32 value =>
    obtain ⟨msg', hget, hadv, hrest⟩ := get_leBytes (n := 4) value.toNat_lt h
    refine ⟨msg', ?_, by simpa [Value.bytes] using hadv, hrest⟩
    simp [Value.read, hget]
  | u64 value =>
    obtain ⟨msg', hget, hadv, hrest⟩ := get_leBytes (n := 8) value.toNat_lt h
    refine ⟨msg', ?_, by simpa [Value.bytes] using hadv, hrest⟩
    simp [Value.read, hget]
  | string value =>
    rw [Value.bytes, List.append_assoc] at h
    have hlt : value.length < 256 ^ 2 := by
      have hmax := h.lt
      rw [List.length_append, List.length_append, NETWORKMESSAGE_MAXSIZE] at hmax
      omega
    obtain ⟨msg₁, hget, hadv, hrest⟩ := get_leBytes hlt h
    obtain ⟨msg', hread, hadv'⟩ := readBytes_of_holds hrest rfl
    refine ⟨msg', ?_, ?_, hrest.advances hadv'⟩
    · simp [Value.read, NetworkMessage.getString, hget, hread]
    · simpa [Value.bytes] using hadv.trans hadv'
  | position x y z =>
    rw [Value.bytes, List.append_assoc, List.append_assoc] at h
    obtain ⟨msg₁, hx, hadvx, hresty⟩ := get_leBytes (n := 2) x.toNat_lt h
    obtain ⟨msg₂, hy, hadvy, hrestz⟩ := get_leBytes (n := 2) y.toNat_lt hresty
    obtain ⟨msg', hz, hadvz, hrest⟩ := get_of_holds (n := 1) hrestz rfl
    refine ⟨msg', ?_, by simpa [Value.bytes] using (hadvx.trans hadvy).trans hadvz, hrest⟩
    simp [Value.read, NetworkMessage.getPosition, hx, hy, hz, Wire.ofLE]

/-- Values that are there are read one after the other. -/
theorem readAll_of_holds (values : List Value) (hne : ∀ v ∈ values, v.NotEmpty)
    (h : Holds msg (values.flatMap Value.bytes ++ rest)) : ∃ msg', readAll msg values = (values, msg') ∧
      Advances msg (values.flatMap Value.bytes).length msg' := by
  induction values generalizing msg with
  | nil => exact ⟨msg, rfl, rfl, rfl, rfl, rfl⟩
  | cons v values ih =>
    rw [List.flatMap_cons, List.append_assoc] at h
    obtain ⟨msg₁, hread, hadv, hrest⟩ := v.read_of_holds (hne v List.mem_cons_self) h
    obtain ⟨msg', hreads, hadv'⟩ := ih (fun v' hv' => hne v' (List.mem_cons_of_mem _ hv')) hrest
    refine ⟨msg', by simp [readAll, hread, hreads], ?_⟩
    rw [List.flatMap_cons, List.length_append]
    exact hadv.trans hadv'

end Reading

/-! ## The codec -/

section Codec

variable {F : Type*} (scale : F → UInt8 → UInt32) (memory : ℕ → UInt8)

/-- Values that fit are read back. -/
theorem roundTrip_of_valuesFit (values : List Value) (hne : ∀ v ∈ values, v.NotEmpty) (hfits : ValuesFit values) :
    let msg := Runs.run (write scale) (.empty memory) (values.map .value)
    let start := { msg with position := INITIAL_BUFFER_POSITION }
    (readAll start values).1 = values ∧ (readAll start values).2.overrun = false ∧
      (readAll start values).2.position = msg.position := by
  intro msg start
  have hempty := NetworkMessage.tidy_empty memory
  have hadd : (NetworkMessage.empty memory).CanAdd (values.flatMap Value.bytes).length := by
    rw [ValuesFit] at hfits
    rw [NetworkMessage.CanAdd, Nat.add_comm]
    exact hfits
  have hmsg : msg = (NetworkMessage.empty memory).put (values.flatMap Value.bytes) :=
    run_write_eq_put hempty values hadd
  have hlength : msg.length = (values.flatMap Value.bytes).length := by
    rw [hmsg, NetworkMessage.length_put hempty hadd]
    exact Nat.zero_add _
  have hposition : msg.position = INITIAL_BUFFER_POSITION + (values.flatMap Value.bytes).length := by
    rw [hmsg, NetworkMessage.position_put hempty hadd]
    rfl
  have hholds : Holds start (values.flatMap Value.bytes ++ []) := by
    rw [List.append_nil]
    refine ⟨?_, ?_, ?_⟩
    · have hbuffer : start.buffer = store memory INITIAL_BUFFER_POSITION (values.flatMap Value.bytes) := by
        show msg.buffer = _
        rw [hmsg]
        rfl
      rw [hbuffer]
      exact Memory.slice_store_self _ _ _
    · show INITIAL_BUFFER_POSITION + _ ≤ msg.length + INITIAL_BUFFER_POSITION
      omega
    · show INITIAL_BUFFER_POSITION + _ < NETWORKMESSAGE_MAXSIZE
      rw [ValuesFit, maxBodyLength_eq] at hfits
      rw [NETWORKMESSAGE_MAXSIZE]
      omega
  obtain ⟨msg', hread, hadv⟩ := readAll_of_holds values hne hholds
  have hoverrun : msg.overrun = false := by
    rw [hmsg]
    rfl
  rw [hread]
  exact ⟨rfl, hadv.overrun.trans hoverrun, hadv.position.trans hposition.symm⟩

/-- **The codec.** For every list of writes to an empty message: values that fit are read back, the
length is that of what is written, nothing is written from `MAX_BODY_LENGTH` on, and each write is
made completely or not at all, if and only if no position and no double is written where only a part
of it fits.

**Proof sketch.** Every write puts bytes that fit, so the length and the buffer are as they should
in all runs. What is put by values that fit is the concatenation of their bytes, from which each
reader takes its own. -/
theorem codecOk_iff (items : List (Item F)) :
    CodecOk scale memory items ↔ Runs.Meets (write scale) Whole (.empty memory) items := by
  have hempty := NetworkMessage.tidy_empty memory
  rw [← meets_allOrNothing_iff hempty]
  constructor
  · exact fun h => h.allOrNothing
  · refine fun h => ⟨?_, h, ?_, ?_⟩
    · rintro values rfl hne hfits
      exact roundTrip_of_valuesFit scale memory values hne hfits
    · intro l _
      exact (Runs.invariant_of_step (write scale) (P := NetworkMessage.Tidy)
        (fun _ item hmsg => tidy_step hmsg item) hempty l).length
    · intro l _ k hk
      exact run_untouched hempty l hk

/-- Where a message is written on behind a string that fits. -/
theorem position_string (value : List UInt8) (hfits : value.length + 10 < MAX_BODY_LENGTH) :
    (write scale (.empty memory) (.value (.string value))).position = value.length + 10 := by
  have hempty := NetworkMessage.tidy_empty memory
  have hlength : (Value.string value).bytes.length = value.length + 2 := by
    rw [Value.bytes, List.length_append, Wire.length_leBytes, Nat.add_comm]
  have hadd : (NetworkMessage.empty memory).CanAdd (Value.string value).bytes.length := by
    rw [hlength]
    exact hfits
  rw [write, Value.write_eq_put hempty _ hadd, NetworkMessage.position_put hempty hadd, hlength]
  exact Nat.add_comm _ _

/-- Of a position behind a long string only the first coordinate is written. -/
theorem not_codecOk_position :
    ¬ CodecOk (fun _ _ => 0 : Unit → UInt8 → UInt32) (fun _ => 0)
      [.value (.string (List.replicate 65473 0)), .value (.position 1000 1000 7)] := by
  intro h
  have hwhole := ((meets_allOrNothing_iff (NetworkMessage.tidy_empty fun _ => 0) _).1 h.allOrNothing).2.1
  have hlength : (List.replicate 65473 (0 : UInt8)).length = 65473 := List.length_replicate
  have hposition := position_string (fun _ _ => 0 : Unit → UInt8 → UInt32) (fun _ => 0)
    (List.replicate 65473 0) (by rw [hlength, maxBodyLength_eq]; omega)
  rw [hlength] at hposition
  rw [Whole, NetworkMessage.CanAdd, NetworkMessage.CanAdd, hposition, maxBodyLength_eq] at hwhole
  omega

end Codec

end TiabloServer.Network
