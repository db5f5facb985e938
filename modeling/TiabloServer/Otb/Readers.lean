import TiabloServer.Otb.FileStream

/-!
# Where the two readers agree

`FileStream::getString` copies its bytes as they are, without taking escapes out. A string without
control bytes is read as `PropStream` reads it. Where a string ends in escape bytes it is read
right, too, but the stream is that many bytes behind: the next byte that is no escape byte brings it
back if it is only one byte behind and that byte is not escaped itself, and is read wrongly
otherwise.

## Main definitions

* `OTB.Lags` — a stream that is some escape bytes behind.
* `OTB.Harmless` — what the strings among the properties may contain.

## Main results

* `OTB.streamReads_iff_pace` — a stream reads the values of the properties as long as it keeps pace.
* `OTB.readers_agree_iff` — the two readers agree exactly on harmless strings.
-/

namespace TiabloServer.OTB

/-! ## One byte -/

namespace FileStream

variable {s : FileStream} {v : UInt8} {t : List UInt8}

/-- What is left of the data. -/
def left (s : FileStream) : List UInt8 := s.m_data.drop s.m_pos

theorem byte_of_left (h : s.left = v :: t) : s.byte = .ok v := by
  have hget : s.m_data[s.m_pos]? = some v := by
    rw [← List.head?_drop, show s.m_data.drop s.m_pos = v :: t from h, List.head?_cons]
  rw [byte, hget]

theorem left_advance (s : FileStream) (n : ℕ) : (s.advance n).left = s.left.drop n :=
  List.drop_drop.symm

theorem next_escape (h : s.left = ESCAPE :: v :: t) :
    ∃ s', s.next = .ok (v, s') ∧ s'.left = t ∧ s'.m_nodes = s.m_nodes := by
  have hleft : (s.advance 1).left = v :: t := by rw [left_advance, h, List.drop_one, List.tail_cons]
  refine ⟨(s.advance 1).advance 1, ?_, ?_, rfl⟩
  · simp only [next, byte_of_left h, bind, Except.bind, if_true, byte_of_left hleft]
    rfl
  · rw [left_advance, hleft, List.drop_one, List.tail_cons]

theorem next_other (h : s.left = v :: t) (hv : v ≠ ESCAPE) :
    ∃ s', s.next = .ok (v, s') ∧ s'.left = t ∧ s'.m_nodes = s.m_nodes := by
  refine ⟨s.advance 1, ?_, ?_, rfl⟩
  · simp only [next, byte_of_left h, bind, Except.bind, if_neg hv]
    rfl
  · rw [left_advance, h, List.drop_one, List.tail_cons]

end FileStream

/-- The stream is `lag` escape bytes behind: it has read all properties but `rest`. -/
structure Lags (s : FileStream) (lag : ℕ) (rest : List UInt8) : Prop where
  nodes : 0 < s.m_nodes
  left : ∃ post, s.left = List.replicate lag ESCAPE ++ (escape rest ++ post)

/-- How far the stream is behind after it has read a byte; none if it reads another byte. -/
def lagByte (lag : ℕ) (b : UInt8) : Option ℕ :=
  if b = ESCAPE then some lag
  else if lag = 0 ∨ lag = 1 ∧ isControl b = false then some 0
  else none

/-- How far the stream is behind after it has copied a byte of a string. -/
def lagCopied (lag : ℕ) (b : UInt8) : Option ℕ :=
  if b = ESCAPE then some (lag + 1)
  else if lag = 0 ∧ isControl b = false then some 0
  else none

section Bytes

variable {s : FileStream} {lag lag' : ℕ} {b : UInt8} {rest bs : List UInt8}

theorem not_isControl_iff : isControl b = false ↔ b ≠ ESCAPE ∧ b ≠ START ∧ b ≠ END := by
  simp [isControl, and_assoc]

theorem escape_cons_control (hb : isControl b = true) (rest : List UInt8) :
    escape (b :: rest) = ESCAPE :: b :: escape rest := by
  rw [escape_cons, if_pos hb]
  rfl

theorem escape_cons_other (hb : isControl b = false) (rest : List UInt8) :
    escape (b :: rest) = b :: escape rest := by
  rw [escape_cons, hb]
  rfl

/-- **One byte**: the stream reads it right, with the lag `lagByte`, or reads another one. -/
theorem Lags.next (h : Lags s lag (b :: rest)) :
    ∃ v s', s.next = .ok (v, s') ∧
      match lagByte lag b with
      | some lag' => v = b ∧ Lags s' lag' rest
      | none => v ≠ b := by
  obtain ⟨post, hleft⟩ := h.left
  rcases lag with _ | _ | lag
  · -- in step: an escape is followed by the byte itself
    cases hb : isControl b with
    | true =>
      rw [escape_cons_control hb] at hleft
      obtain ⟨s', hnext, hleft', hnodes⟩ := FileStream.next_escape hleft
      refine ⟨b, s', hnext, ?_⟩
      have hlag : lagByte 0 b = some 0 := by simp [lagByte]
      rw [hlag]
      exact ⟨rfl, hnodes ▸ h.nodes, post, hleft'⟩
    | false =>
      rw [escape_cons_other hb] at hleft
      have hne := (not_isControl_iff.1 hb).1
      obtain ⟨s', hnext, hleft', hnodes⟩ := FileStream.next_other hleft hne
      refine ⟨b, s', hnext, ?_⟩
      have hlag : lagByte 0 b = some 0 := by simp [lagByte]
      rw [hlag]
      exact ⟨rfl, hnodes ▸ h.nodes, post, hleft'⟩
  · -- one behind: the byte left over is taken for an escape
    cases hb : isControl b with
    | true =>
      rw [escape_cons_control hb] at hleft
      obtain ⟨s', hnext, hleft', hnodes⟩ := FileStream.next_escape hleft
      refine ⟨ESCAPE, s', hnext, ?_⟩
      by_cases hbe : b = ESCAPE
      · have hlag : lagByte 1 b = some 1 := by simp [lagByte, hbe]
        rw [hlag]
        refine ⟨hbe.symm, hnodes ▸ h.nodes, post, ?_⟩
        rw [hleft', hbe]
        rfl
      · have hlag : lagByte 1 b = none := by simp [lagByte, hbe, hb]
        rw [hlag]
        exact Ne.symm hbe
    | false =>
      rw [escape_cons_other hb] at hleft
      obtain ⟨s', hnext, hleft', hnodes⟩ := FileStream.next_escape hleft
      refine ⟨b, s', hnext, ?_⟩
      have hlag : lagByte 1 b = some 0 := by simp [lagByte, hb, (not_isControl_iff.1 hb).1]
      rw [hlag]
      exact ⟨rfl, hnodes ▸ h.nodes, post, hleft'⟩
  · -- further behind: an escape byte is read
    have hleft₂ : s.left = ESCAPE :: ESCAPE ::
        (List.replicate lag ESCAPE ++ (escape (b :: rest) ++ post)) := hleft
    obtain ⟨s', hnext, hleft', hnodes⟩ := FileStream.next_escape hleft₂
    refine ⟨ESCAPE, s', hnext, ?_⟩
    by_cases hbe : b = ESCAPE
    · have hlag : lagByte (lag + 2) b = some (lag + 2) := by simp [lagByte, hbe]
      rw [hlag]
      refine ⟨hbe.symm, hnodes ▸ h.nodes, post, ?_⟩
      rw [hleft', hbe, escape_cons_control rfl, List.replicate_succ', List.replicate_succ']
      simp only [List.append_assoc, List.cons_append, List.nil_append]
    · have hlag : lagByte (lag + 2) b = none := by simp [lagByte, hbe]
      rw [hlag]
      exact Ne.symm hbe

/-! ## Numbers -/

/-- What a computation returns its last step returns. -/
theorem bind_ok {ε α β : Type} {x : Except ε α} {f : α → Except ε β} {r : β}
    (h : x >>= f = .ok r) : ∃ a, x = .ok a ∧ f a = .ok r := by
  cases x with
  | error e => exact nomatch h
  | ok a => exact ⟨a, rfl, h⟩

/-- The loop of `read` returns as many bytes as it has turns. -/
theorem length_of_readEscaped {n : ℕ} {s' : FileStream} (h : s.readEscaped n = .ok (bs, s')) : bs.length = n := by
  induction n generalizing s s' bs with
  | zero =>
    obtain rfl := (Prod.mk.inj (Except.ok.inj h)).1
    rfl
  | succ n ih =>
    obtain ⟨⟨v, s₁⟩, -, h⟩ := bind_ok h
    obtain ⟨⟨bs₁, s₂⟩, hrest, h⟩ := bind_ok h
    obtain rfl := (Prod.mk.inj (Except.ok.inj h)).1
    rw [List.length_cons, ih hrest]

/-- **Some bytes**: the stream reads them right as long as it keeps pace. -/
theorem Lags.readEscaped (h : Lags s lag (bs ++ rest)) :
    match bs.foldlM lagByte lag with
    | some lag' => ∃ s', s.readEscaped bs.length = .ok (bs, s') ∧ Lags s' lag' rest
    | none => ∀ s', s.readEscaped bs.length ≠ .ok (bs, s') := by
  induction bs generalizing s lag with
  | nil => exact ⟨s, rfl, h⟩
  | cons b bs ih =>
    obtain ⟨v, s₁, hnext, hbyte⟩ := h.next
    have hread : ∀ s', s.readEscaped (b :: bs).length = .ok (b :: bs, s') ↔
        v = b ∧ s₁.readEscaped bs.length = .ok (bs, s') := by
      intro s'
      constructor
      · intro h
        obtain ⟨⟨v', s₁'⟩, hnext', h⟩ := bind_ok h
        obtain ⟨rfl, rfl⟩ := Prod.mk.inj (Except.ok.inj (hnext.symm.trans hnext'))
        obtain ⟨⟨bs', s₂⟩, hrest, h⟩ := bind_ok h
        obtain ⟨hbs, rfl⟩ := Prod.mk.inj (Except.ok.inj h)
        obtain ⟨rfl, rfl⟩ := List.cons.inj hbs
        exact ⟨rfl, hrest⟩
      · rintro ⟨rfl, hrest⟩
        rw [List.length_cons, FileStream.readEscaped, hnext]
        change (s₁.readEscaped bs.length >>= fun p => pure (v :: p.1, p.2)) = _
        rw [hrest]
        rfl
    simp only [List.foldlM_cons, hread]
    cases hlag : lagByte lag b with
    | none =>
      rw [hlag] at hbyte
      exact fun s' hok => hbyte ((hread s').1 hok).1
    | some lag₁ =>
      rw [hlag] at hbyte
      obtain ⟨rfl, hlags⟩ := hbyte
      have hih := ih hlags
      change match bs.foldlM lagByte lag₁ with
        | some lag' => ∃ s', (v = v ∧ s₁.readEscaped bs.length = .ok (bs, s')) ∧ Lags s' lag' rest
        | none => ∀ s', s.readEscaped (v :: bs).length ≠ .ok (v :: bs, s')
      cases hfold : bs.foldlM lagByte lag₁ with
      | some lag' =>
        rw [hfold] at hih
        obtain ⟨s', hok, hlags'⟩ := hih
        exact ⟨s', ⟨rfl, hok⟩, hlags'⟩
      | none =>
        rw [hfold] at hih
        exact fun s' hok => hih s' ((hread s').1 hok).2

/-- There are as many raw bytes as properties, or more. -/
theorem length_le_escape (bs : List UInt8) : bs.length ≤ (escape bs).length := by
  induction bs with
  | nil => exact le_rfl
  | cons b bs ih =>
    rw [escape_cons, List.length_append, List.length_cons]
    split_ifs
    · simp only [List.length_cons, List.length_nil]
      omega
    · simp only [List.length_cons, List.length_nil]
      omega

theorem Lags.length_le (h : Lags s lag (bs ++ rest)) (hbs : bs ≠ []) : s.m_pos + bs.length ≤ s.m_data.length := by
  obtain ⟨post, hleft⟩ := h.left
  have hlength := congrArg List.length hleft
  rw [FileStream.left, List.length_drop, List.length_append, List.length_append] at hlength
  have hle := length_le_escape (bs ++ rest)
  rw [List.length_append] at hle
  have hpos : 0 < bs.length := List.length_pos_of_ne_nil hbs
  omega

/-- In a node `getU8` reads as the other numbers are read. -/
theorem getU8_eq (h : 0 < s.m_nodes) : s.getU8 = s.getNumber 1 := by
  have htrue : (decide (0 < s.m_nodes)) = true := decide_eq_true h
  rw [FileStream.getU8, FileStream.getNumber, FileStream.read, htrue]
  by_cases hsize : s.m_pos + 1 > s.m_data.length
  · rw [if_pos hsize, if_pos hsize]
    rfl
  · rw [if_neg hsize, if_neg hsize, if_pos rfl, FileStream.readEscaped, FileStream.next]
    cases s.byte with
    | error e => rfl
    | ok b =>
      simp only [bind, Except.bind, h, true_and]
      cases (if b = ESCAPE then s.advance 1 else s).byte with
      | error e => rfl
      | ok v => rfl

/-- **A number**: the stream reads it right as long as it keeps pace. -/
theorem Lags.getNumber (h : Lags s lag (bs ++ rest)) (hbs : bs ≠ []) :
    match bs.foldlM lagByte lag with
    | some lag' => ∃ s', s.getNumber bs.length = .ok (Wire.ofLE bs, s') ∧ Lags s' lag' rest
    | none => ∀ s', s.getNumber bs.length ≠ .ok (Wire.ofLE bs, s') := by
  have hread : s.read bs.length (decide (0 < s.m_nodes)) = s.readEscaped bs.length := by
    have hle := h.length_le hbs
    rw [FileStream.read, if_neg (by omega), decide_eq_true h.nodes, if_pos rfl]
  have hbytes := h.readEscaped
  rw [FileStream.getNumber, hread]
  cases hfold : bs.foldlM lagByte lag with
  | some lag' =>
    rw [hfold] at hbytes
    obtain ⟨s', hok, hlags⟩ := hbytes
    refine ⟨s', ?_, hlags⟩
    rw [hok]
    rfl
  | none =>
    rw [hfold] at hbytes
    intro s' hok
    obtain ⟨⟨bs', s₁⟩, hbs', hok⟩ := bind_ok hok
    obtain ⟨hnumber, rfl⟩ := Prod.mk.inj (Except.ok.inj hok)
    obtain rfl := Wire.ofLE_injective (length_of_readEscaped hbs') hnumber
    exact hbytes s₁ hbs'

/-! ## Strings -/

/-- Copying takes the bytes of a string from the raw bytes as long as it keeps pace. -/
theorem take_escape (str : List UInt8) (lag : ℕ) (rest post : List UInt8) :
    match str.foldlM lagCopied lag with
    | some lag' =>
      (List.replicate lag ESCAPE ++ (escape (str ++ rest) ++ post)).take str.length = str ∧
        (List.replicate lag ESCAPE ++ (escape (str ++ rest) ++ post)).drop str.length =
          List.replicate lag' ESCAPE ++ (escape rest ++ post)
    | none =>
      (List.replicate lag ESCAPE ++ (escape (str ++ rest) ++ post)).take str.length ≠ str := by
  induction str generalizing lag with
  | nil => exact ⟨rfl, rfl⟩
  | cons b str ih =>
    -- the first raw byte, and what is left once it has been copied
    have hraw : ∃ v t, List.replicate lag ESCAPE ++ (escape (b :: str ++ rest) ++ post) = v :: t ∧
        match lagCopied lag b with
        | some lag' => v = b ∧ t = List.replicate lag' ESCAPE ++ (escape (str ++ rest) ++ post)
        | none => v ≠ b := by
      cases lag with
      | zero =>
        cases hb : isControl b with
        | false =>
          refine ⟨b, escape (str ++ rest) ++ post, ?_, ?_⟩
          · rw [List.cons_append, escape_cons_other hb]
            rfl
          · have hlag : lagCopied 0 b = some 0 := by
              simp [lagCopied, hb, (not_isControl_iff.1 hb).1]
            rw [hlag]
            exact ⟨rfl, rfl⟩
        | true =>
          refine ⟨ESCAPE, b :: (escape (str ++ rest) ++ post), ?_, ?_⟩
          · rw [List.cons_append, escape_cons_control hb]
            rfl
          · by_cases hbe : b = ESCAPE
            · have hlag : lagCopied 0 b = some 1 := by simp [lagCopied, hbe]
              rw [hlag, hbe]
              exact ⟨rfl, rfl⟩
            · have hlag : lagCopied 0 b = none := by simp [lagCopied, hbe, hb]
              rw [hlag]
              exact Ne.symm hbe
      | succ lag =>
        refine ⟨ESCAPE, _, rfl, ?_⟩
        by_cases hbe : b = ESCAPE
        · have hlag : lagCopied (lag + 1) b = some (lag + 2) := by simp [lagCopied, hbe]
          rw [hlag, hbe]
          refine ⟨rfl, ?_⟩
          rw [List.cons_append, escape_cons_control rfl, List.replicate_succ',
            List.replicate_succ']
          simp only [List.append_eq, List.append_assoc, List.cons_append, List.nil_append]
        · have hlag : lagCopied (lag + 1) b = none := by simp [lagCopied, hbe]
          rw [hlag]
          exact Ne.symm hbe
    obtain ⟨v, t, hvt, hbyte⟩ := hraw
    simp only [List.foldlM_cons, hvt, List.length_cons, List.take_succ_cons, List.drop_succ_cons]
    cases hlag : lagCopied lag b with
    | none =>
      rw [hlag] at hbyte
      exact fun heq => hbyte (List.cons.inj heq).1
    | some lag₁ =>
      rw [hlag] at hbyte
      obtain ⟨rfl, rfl⟩ := hbyte
      have hih := ih lag₁
      simp only [bind, Option.bind]
      cases hfold : str.foldlM lagCopied lag₁ with
      | some lag' =>
        rw [hfold] at hih
        exact ⟨congrArg (v :: ·) hih.1, hih.2⟩
      | none =>
        rw [hfold] at hih
        exact fun heq => hih (List.cons.inj heq).2

/-- A string is as long as the number in front of it. -/
theorem length_of_getString {str : List UInt8} {s' : FileStream} (h : s.getString = .ok (str, s')) :
    ∃ s₁, s.getNumber 2 = .ok (str.length, s₁) := by
  obtain ⟨⟨n, s₁⟩, hnumber, h⟩ := bind_ok h
  refine ⟨s₁, ?_⟩
  dsimp only at h
  split_ifs at h with hn hsize hzero
  · obtain ⟨rfl, -⟩ := Prod.mk.inj (Except.ok.inj h)
    have hlength : ((s₁.m_data.drop s₁.m_pos).take n).length = n := by
      rw [List.length_take, List.length_drop]
      omega
    rw [hlength, hnumber]
  · obtain ⟨rfl, -⟩ := Prod.mk.inj (Except.ok.inj h)
    rw [hnumber, not_not.1 hzero]
    rfl

/-- **A string**: the stream reads it right as long as it keeps pace and the string is short. -/
theorem Lags.getString {str : List UInt8} (h : Lags s lag (bs ++ (str ++ rest)))
    (hbs : bs.length = 2) (hlength : Wire.ofLE bs = str.length) :
    match bs.foldlM lagByte lag with
    | none => ∀ s', s.getString ≠ .ok (str, s')
    | some lag₁ =>
      if str.length < 8192 then
        match str.foldlM lagCopied lag₁ with
        | some lag' => ∃ s', s.getString = .ok (str, s') ∧ Lags s' lag' rest
        | none => ∀ s', s.getString ≠ .ok (str, s')
      else ∀ s', s.getString ≠ .ok (str, s') := by
  have hnumber := h.getNumber (fun hnil => by rw [hnil] at hbs; exact nomatch hbs)
  rw [hbs, hlength] at hnumber
  cases hfold : bs.foldlM lagByte lag with
  | none =>
    rw [hfold] at hnumber
    intro s' hok
    obtain ⟨s₁, hlen⟩ := length_of_getString hok
    exact hnumber s₁ hlen
  | some lag₁ =>
    rw [hfold] at hnumber
    obtain ⟨s₁, hok, hlags⟩ := hnumber
    have hget : s.getString = if 0 < str.length ∧ str.length < 8192 then
        if s₁.m_pos + str.length > s₁.m_data.length then .error .failure
        else .ok (s₁.left.take str.length, s₁.advance str.length)
      else if str.length ≠ 0 then .error .failure else .ok ([], s₁) := by
      rw [FileStream.getString, hok]
      rfl
    dsimp only
    rw [hget]
    by_cases hshort : str.length < 8192
    · rw [if_pos hshort]
      by_cases hpos : 0 < str.length
      · have hle := hlags.length_le (List.length_pos_iff.1 hpos)
        rw [if_pos ⟨hpos, hshort⟩, if_neg (by omega)]
        obtain ⟨post, hleft⟩ := hlags.left
        have htake := take_escape str lag₁ rest post
        rw [← hleft] at htake
        cases hcopied : str.foldlM lagCopied lag₁ with
        | some lag' =>
          rw [hcopied] at htake
          refine ⟨s₁.advance str.length, by rw [htake.1], hlags.nodes, post, ?_⟩
          rw [FileStream.left_advance, htake.2]
        | none =>
          rw [hcopied] at htake
          exact fun s' hok => htake (Prod.mk.inj (Except.ok.inj hok)).1
      · obtain rfl := List.length_eq_zero_iff.1 (Nat.eq_zero_of_not_pos hpos)
        rw [if_neg (fun hand => hpos hand.1), if_neg (fun hne => hne rfl)]
        exact ⟨s₁, rfl, hlags⟩
    · rw [if_neg hshort, if_neg (fun hand => hshort hand.2), if_pos (by omega)]
      exact fun s' hok => nomatch hok

end Bytes

/-! ## Fields -/

/-- The bytes that a read takes from the properties: those of a number, or the two bytes of the
length of a string and the string. -/
inductive Field where
  | number (bytes : List UInt8)
  | string (length str : List UInt8)

/-- All bytes of a field. -/
def Field.bytes : Field → List UInt8
  | .number bytes => bytes
  | .string length str => length ++ str

/-- The value of a field. -/
def Field.value : Field → Value
  | .number bytes => .number (Wire.ofLE bytes)
  | .string _ str => .string str

/-- The number of bytes of a number, or of the length of a string. -/
def Read.size : Read → ℕ
  | .u8 => 1
  | .u16 | .string => 2
  | .u32 => 4
  | .u64 => 8

/-- The field that a read takes from properties, and the properties after it. -/
def fieldOf (p : List UInt8) (r : Read) : Option (Field × List UInt8) :=
  if p.length < r.size then none
  else if r = .string then
    if (p.drop 2).length < Wire.ofLE (p.take 2) then none
    else some (.string (p.take 2) ((p.drop 2).take (Wire.ofLE (p.take 2))),
      (p.drop 2).drop (Wire.ofLE (p.take 2)))
  else some (.number (p.take r.size), p.drop r.size)

/-- The fields that reads take from properties. -/
def fieldsOf : List Read → List UInt8 → Option (List Field)
  | [], _ => some []
  | r :: rs, p => (fieldOf p r).bind fun q => (fieldsOf rs q.2).map (q.1 :: ·)

/-- A stream that is `lag` escape bytes behind reads `after` right: the first byte that is no escape
byte has no escape in front of it when the stream is one byte behind, and there is no such byte
when it is further behind. -/
def CatchesUp (lag : ℕ) (after : List UInt8) : Prop :=
  (lag = 1 → ∀ b ∈ (after.dropWhile (· == ESCAPE)).head?, isControl b = false) ∧
    (2 ≤ lag → ∀ b ∈ after, b = ESCAPE)

/-- Every string is shorter than 8192 bytes and has no control byte but escape bytes at its end,
from which the stream catches up in the bytes that are read after it. -/
def Harmless : List Field → Prop
  | [] => True
  | .number _ :: fs => Harmless fs
  | .string _ str :: fs =>
    str.length < 8192 ∧
      (∃ u k, str = u ++ List.replicate k ESCAPE ∧ (∀ b ∈ u, isControl b = false) ∧
        CatchesUp k (fs.flatMap Field.bytes)) ∧
      Harmless fs

/-- How far the stream is behind after it has read a field; none if it reads other values. -/
def Field.lagAfter (lag : ℕ) : Field → Option ℕ
  | .number bytes => bytes.foldlM lagByte lag
  | .string length str =>
    (length.foldlM lagByte lag).bind fun lag =>
      if str.length < 8192 then str.foldlM lagCopied lag else none

/-- The stream keeps pace with all fields. -/
def KeepsPace : ℕ → List Field → Prop
  | _, [] => True
  | lag, f :: fs => ∃ lag', f.lagAfter lag = some lag' ∧ KeepsPace lag' fs

section Fields

variable {s : FileStream} {lag : ℕ} {p p' : List UInt8} {r : Read} {f : Field}

theorem propGet_eq (p : List UInt8) (r : Read) :
    PropStream.get p r = (fieldOf p r).map fun q => (q.1.value, q.2) := by
  cases r with
  | string =>
    rw [PropStream.get, PropStream.readString, PropStream.read, fieldOf, Read.size]
    by_cases hsize : p.length < 2
    · rw [if_pos hsize, if_pos hsize]
      rfl
    · rw [if_neg hsize, if_neg hsize, if_pos rfl]
      simp only [bind, Option.bind]
      split_ifs <;> rfl
  | u8 | u16 | u32 | u64 =>
    rw [PropStream.get, PropStream.read, fieldOf, Read.size]
    split_ifs <;> first | rfl | contradiction

theorem propReads_eq (rs : List Read) (p : List UInt8) :
    propReads rs p = (fieldsOf rs p).map (·.map Field.value) := by
  induction rs generalizing p with
  | nil => rfl
  | cons r rs ih =>
    rw [propReads, fieldsOf, propGet_eq]
    cases fieldOf p r with
    | none => rfl
    | some q =>
      change (propReads rs q.2).bind (fun vs => some (q.1.value :: vs)) =
        ((fieldsOf rs q.2).map (q.1 :: ·)).map (·.map Field.value)
      rw [ih]
      cases fieldsOf rs q.2 <;> rfl

/-- The bytes of a number are as many as it has, and the length of a string is its length. -/
theorem fieldOf_eq_some (h : fieldOf p r = some (f, p')) :
    (r ≠ .string ∧ ∃ bytes, f = .number bytes ∧ bytes.length = r.size ∧ p = bytes ++ p') ∨
      r = .string ∧ ∃ length str, f = .string length str ∧ length.length = 2 ∧
        Wire.ofLE length = str.length ∧ p = length ++ (str ++ p') := by
  rw [fieldOf] at h
  split_ifs at h with hsize hr hstr
  · subst hr
    obtain ⟨rfl, rfl⟩ := Prod.mk.inj (Option.some.inj h)
    rw [Read.size] at hsize
    refine Or.inr ⟨rfl, _, _, rfl, ?_, ?_, ?_⟩
    · rw [List.length_take]
      omega
    · rw [List.length_take]
      omega
    · rw [List.take_append_drop, List.take_append_drop]
  · obtain ⟨rfl, rfl⟩ := Prod.mk.inj (Option.some.inj h)
    refine Or.inl ⟨hr, _, rfl, ?_, ?_⟩
    · rw [List.length_take]
      omega
    · rw [List.take_append_drop]

theorem get_number (hr : r ≠ .string) (hnodes : 0 < s.m_nodes) :
    s.get r = s.getNumber r.size >>= fun q => pure (.number q.1, q.2) := by
  cases r with
  | string => exact absurd rfl hr
  | u8 =>
    rw [FileStream.get, getU8_eq hnodes]
    rfl
  | u16 | u32 | u64 => rfl

/-- **A read**: the stream returns the value of the field as long as it keeps pace. -/
theorem Lags.get (h : Lags s lag p) (hf : fieldOf p r = some (f, p')) :
    match f.lagAfter lag with
    | some lag' => ∃ s', s.get r = .ok (f.value, s') ∧ Lags s' lag' p'
    | none => ∀ s', s.get r ≠ .ok (f.value, s') := by
  rcases fieldOf_eq_some hf with ⟨hr, bytes, rfl, hlength, rfl⟩ |
    ⟨rfl, length, str, rfl, hlength, hstr, rfl⟩
  · have hne : bytes ≠ [] := by
      rintro rfl
      cases r <;> exact nomatch hlength
    have hnumber := h.getNumber hne
    rw [hlength] at hnumber
    rw [Field.lagAfter, Field.value, get_number hr h.nodes]
    cases hfold : bytes.foldlM lagByte lag with
    | some lag' =>
      rw [hfold] at hnumber
      obtain ⟨s', hok, hlags⟩ := hnumber
      refine ⟨s', ?_, hlags⟩
      rw [hok]
      rfl
    | none =>
      rw [hfold] at hnumber
      intro s' hok
      obtain ⟨⟨n, s₁⟩, hn, hok⟩ := bind_ok hok
      obtain ⟨hvalue, -⟩ := Prod.mk.inj (Except.ok.inj hok)
      exact hnumber s₁ (Value.number.inj hvalue ▸ hn)
  · have hstring := h.getString hlength hstr
    have hget : ∀ s', s.get .string = .ok (.string str, s') ↔ s.getString = .ok (str, s') := by
      intro s'
      constructor
      · intro hok
        obtain ⟨⟨str', s₁⟩, hstr', hok⟩ := bind_ok hok
        obtain ⟨hvalue, rfl⟩ := Prod.mk.inj (Except.ok.inj hok)
        rw [hstr', Value.string.inj hvalue]
      · intro hok
        rw [FileStream.get, hok]
        rfl
    simp only [Field.lagAfter, Field.value, ne_eq, hget]
    cases hfold : length.foldlM lagByte lag with
    | none =>
      rw [hfold] at hstring
      exact hstring
    | some lag₁ =>
      rw [hfold] at hstring
      simp only [Option.bind]
      dsimp only at hstring
      split_ifs at hstring ⊢
      · exact hstring
      · exact hstring

/-- **A stream reads the values of the properties** exactly as long as it keeps pace. -/
theorem streamReads_iff_keepsPace {rs : List Read} {fs : List Field} (h : Lags s lag p)
    (hfields : fieldsOf rs p = some fs) : streamReads rs s = .ok (fs.map Field.value) ↔ KeepsPace lag fs := by
  induction rs generalizing s lag p fs with
  | nil =>
    obtain rfl := Option.some.inj hfields
    exact iff_of_true rfl trivial
  | cons r rs ih =>
    obtain ⟨⟨f, p'⟩, hf, hrest⟩ := Option.bind_eq_some_iff.1 hfields
    obtain ⟨fs, hfs, rfl⟩ := Option.map_eq_some_iff.1 hrest
    have hget := h.get hf
    rw [KeepsPace]
    constructor
    · intro hok
      obtain ⟨⟨v, s₁⟩, hv, hok⟩ := bind_ok hok
      obtain ⟨vs, hvs, hok⟩ := bind_ok hok
      obtain ⟨rfl, rfl⟩ := List.cons.inj (Except.ok.inj hok)
      cases hlag : f.lagAfter lag with
      | none =>
        rw [hlag] at hget
        exact (hget s₁ hv).elim
      | some lag' =>
        rw [hlag] at hget
        obtain ⟨s', hok', hlags⟩ := hget
        obtain ⟨-, rfl⟩ := Prod.mk.inj (Except.ok.inj (hv.symm.trans hok'))
        exact ⟨lag', rfl, (ih hlags hfs).1 hvs⟩
    · rintro ⟨lag', hlag, hpace⟩
      rw [hlag] at hget
      obtain ⟨s', hok, hlags⟩ := hget
      have hvs := (ih hlags hfs).2 hpace
      rw [streamReads, hok]
      change (streamReads rs s' >>= fun vs => pure (f.value :: vs)) = _
      rw [hvs]
      rfl

end Fields

/-! ## Harmless strings -/

section Pace

variable {lag lag' : ℕ} {b : UInt8} {bs after str : List UInt8}

theorem catchesUp_zero (after : List UInt8) : CatchesUp 0 after :=
  ⟨fun h => absurd h Nat.zero_ne_one, fun h => absurd h (by omega)⟩

theorem catchesUp_cons : CatchesUp lag (b :: after) ↔ ∃ lag', lagByte lag b = some lag' ∧ CatchesUp lag' after := by
  by_cases hb : b = ESCAPE
  · subst hb
    have hlag : lagByte lag ESCAPE = some lag := by rw [lagByte, if_pos rfl]
    simp [hlag, CatchesUp]
  · have hdrop : (b :: after).dropWhile (· == ESCAPE) = b :: after :=
      List.dropWhile_cons_of_neg (by simpa using hb)
    rw [CatchesUp, hdrop, lagByte, if_neg hb]
    by_cases hzero : lag = 0
    · subst hzero
      rw [if_pos (Or.inl rfl)]
      exact iff_of_true ⟨fun h => absurd h Nat.zero_ne_one, fun h => absurd h (by omega)⟩
        ⟨0, rfl, catchesUp_zero after⟩
    · by_cases hone : lag = 1 ∧ isControl b = false
      · rw [if_pos (Or.inr hone)]
        refine iff_of_true ⟨fun _ b' hb' => ?_, fun h => absurd h (by omega)⟩
          ⟨0, rfl, catchesUp_zero after⟩
        obtain rfl := Option.some.inj hb'
        exact hone.2
      · rw [if_neg (fun h => h.elim hzero hone)]
        refine iff_of_false (fun h => ?_) fun ⟨_, h, _⟩ => nomatch h
        rcases Nat.lt_or_ge 1 lag with hlt | hle
        · exact hb (h.2 hlt b List.mem_cons_self)
        · have hlag : lag = 1 := by omega
          exact hone ⟨hlag, h.1 hlag b rfl⟩

theorem catchesUp_append : CatchesUp lag (bs ++ after) ↔
      ∃ lag', bs.foldlM lagByte lag = some lag' ∧ CatchesUp lag' after := by
  induction bs generalizing lag with
  | nil =>
    constructor
    · exact fun h => ⟨lag, rfl, h⟩
    · rintro ⟨lag', h, hcatches⟩
      obtain rfl := Option.some.inj h
      exact hcatches
  | cons b bs ih =>
    rw [List.cons_append, catchesUp_cons, List.foldlM_cons]
    constructor
    · rintro ⟨lag₁, hlag, h⟩
      obtain ⟨lag', hfold, hcatches⟩ := ih.1 h
      exact ⟨lag', Option.bind_eq_some_iff.2 ⟨lag₁, hlag, hfold⟩, hcatches⟩
    · rintro ⟨lag', hfold, hcatches⟩
      obtain ⟨lag₁, hlag, hrest⟩ := Option.bind_eq_some_iff.1 hfold
      exact ⟨lag₁, hlag, ih.2 ⟨lag', hrest, hcatches⟩⟩

/-- After a byte that is no escape byte the stream is in step. -/
theorem eq_zero_or_escape (h : bs.foldlM lagByte lag = some lag') : lag' = 0 ∨ ∀ b ∈ bs, b = ESCAPE := by
  induction bs generalizing lag with
  | nil => exact Or.inr fun b hb => nomatch hb
  | cons b bs ih =>
    rw [List.foldlM_cons] at h
    obtain ⟨lag₁, hlag, hrest⟩ := Option.bind_eq_some_iff.1 h
    by_cases hb : b = ESCAPE
    · rcases ih hrest with hzero | hall
      · exact Or.inl hzero
      · refine Or.inr fun b' hb' => ?_
        rcases List.mem_cons.1 hb' with rfl | hb'
        · exact hb
        · exact hall b' hb'
    · rw [lagByte, if_neg hb] at hlag
      split_ifs at hlag
      obtain rfl := Option.some.inj hlag
      have hstays : ∀ l : List UInt8, l.foldlM lagByte 0 = some 0 := by
        intro l
        induction l with
        | nil => rfl
        | cons b l ih =>
          rw [List.foldlM_cons, show lagByte 0 b = some 0 by simp [lagByte]]
          exact ih
      exact Or.inl (Option.some.inj ((hstays bs).symm.trans hrest)).symm

/-- **A string is copied right** when the raw bytes that are left over with it are bytes without a
meaning of their own and then escape bytes, as many as the stream is behind afterwards. -/
theorem foldlM_lagCopied : str.foldlM lagCopied lag = some lag' ↔
      ∃ u, List.replicate lag ESCAPE ++ str = u ++ List.replicate lag' ESCAPE ∧ ∀ b ∈ u, isControl b = false := by
  have hcontrol : isControl ESCAPE = true := rfl
  induction str generalizing lag with
  | nil =>
    rw [List.append_nil]
    constructor
    · intro h
      obtain rfl := Option.some.inj h
      exact ⟨[], rfl, fun b hb => nomatch hb⟩
    · rintro ⟨u, heq, hu⟩
      have hnil : u = [] := by
        refine List.eq_nil_iff_forall_not_mem.2 fun b hb => ?_
        have hmem : b ∈ List.replicate lag ESCAPE := heq ▸ List.mem_append_left _ hb
        have hfalse := hu b hb
        rw [List.eq_of_mem_replicate hmem, hcontrol] at hfalse
        exact nomatch hfalse
      have hlength := congrArg List.length heq
      rw [hnil, List.nil_append, List.length_replicate, List.length_replicate] at hlength
      exact congrArg some hlength
  | cons b str ih =>
    rw [List.foldlM_cons]
    by_cases hb : b = ESCAPE
    · subst hb
      have hlag : lagCopied lag ESCAPE = some (lag + 1) := by rw [lagCopied, if_pos rfl]
      rw [hlag]
      refine ih.trans ?_
      rw [List.replicate_succ', List.append_assoc, List.singleton_append]
    · rw [lagCopied, if_neg hb]
      by_cases hstep : lag = 0 ∧ isControl b = false
      · obtain ⟨rfl, hfree⟩ := hstep
        rw [if_pos ⟨rfl, hfree⟩]
        refine ih.trans ⟨fun ⟨u, heq, hu⟩ => ⟨b :: u, congrArg (b :: ·) heq, fun b' hb' => ?_⟩,
          fun ⟨u, heq, hu⟩ => ?_⟩
        · rcases List.mem_cons.1 hb' with rfl | hb'
          · exact hfree
          · exact hu b' hb'
        · cases u with
          | nil =>
            have hmem : b ∈ List.replicate lag' ESCAPE := by
              rw [List.nil_append] at heq
              exact heq ▸ List.mem_cons_self
            exact absurd (List.eq_of_mem_replicate hmem) hb
          | cons b' u =>
            exact ⟨u, (List.cons.inj heq).2, fun b hb => hu b (List.mem_cons_of_mem b' hb)⟩
      · rw [if_neg hstep]
        refine iff_of_false (fun h => nomatch h) ?_
        rintro ⟨u, heq, hu⟩
        have hmem : b ∈ u ++ List.replicate lag' ESCAPE :=
          heq ▸ List.mem_append_right _ List.mem_cons_self
        have hbu : b ∈ u := (List.mem_append.1 hmem).resolve_right fun h =>
          hb (List.eq_of_mem_replicate h)
        refine hstep ⟨?_, hu b hbu⟩
        cases lag with
        | zero => rfl
        | succ lag =>
          cases u with
          | nil => exact nomatch hbu
          | cons b' u =>
            have hfirst : ESCAPE = b' := (List.cons.inj heq).1
            have hfalse := hu b' List.mem_cons_self
            rw [← hfirst, hcontrol] at hfalse
            exact nomatch hfalse

/-- The length of every string is its length, in two bytes. -/
def Field.Valid : Field → Prop
  | .number _ => True
  | .string length str => length.length = 2 ∧ Wire.ofLE length = str.length

theorem valid_of_fieldsOf {rs : List Read} {p : List UInt8} {fs : List Field}
    (h : fieldsOf rs p = some fs) : ∀ f ∈ fs, f.Valid := by
  induction rs generalizing p fs with
  | nil =>
    obtain rfl := Option.some.inj h
    exact fun f hf => nomatch hf
  | cons r rs ih =>
    obtain ⟨⟨f, p'⟩, hf, hrest⟩ := Option.bind_eq_some_iff.1 h
    obtain ⟨fs, hfs, rfl⟩ := Option.map_eq_some_iff.1 hrest
    intro f' hf'
    rcases List.mem_cons.1 hf' with rfl | hf'
    · rcases fieldOf_eq_some hf with ⟨-, bytes, rfl, -⟩ | ⟨-, length, str, rfl, hlength, hstr, -⟩
      · exact trivial
      · exact ⟨hlength, hstr⟩
    · exact ih hfs f' hf'

/-- The length of a short string brings the stream in step. -/
theorem lag_of_length {length : List UInt8} (hlength : length.length = 2)
    (hshort : Wire.ofLE length < 8192) (h : length.foldlM lagByte lag = some lag') : lag' = 0 := by
  rcases eq_zero_or_escape h with hzero | hall
  · exact hzero
  · rw [List.eq_replicate_iff.2 ⟨hlength, hall⟩] at hshort
    exact absurd hshort (by decide)

/-- **The stream keeps pace** with exactly the fields that are harmless and from which it catches
up. -/
theorem keepsPace_iff {fs : List Field} (hvalid : ∀ f ∈ fs, f.Valid) :
    KeepsPace lag fs ↔ CatchesUp lag (fs.flatMap Field.bytes) ∧ Harmless fs := by
  induction fs generalizing lag with
  | nil =>
    refine iff_of_true trivial ⟨⟨fun _ b hb => (nomatch hb), fun _ b hb => (nomatch hb)⟩, trivial⟩
  | cons f fs ih =>
    have ih' : ∀ lag, KeepsPace lag fs ↔ CatchesUp lag (fs.flatMap Field.bytes) ∧ Harmless fs :=
      fun _ => ih fun f' hf' => hvalid f' (List.mem_cons_of_mem f hf')
    rw [KeepsPace, List.flatMap_cons]
    simp only [ih']
    cases f with
    | number bytes =>
      rw [Field.bytes, catchesUp_append, Harmless, Field.lagAfter]
      constructor
      · rintro ⟨lag', hfold, hcatches, hharmless⟩
        exact ⟨⟨lag', hfold, hcatches⟩, hharmless⟩
      · rintro ⟨⟨lag', hfold, hcatches⟩, hharmless⟩
        exact ⟨lag', hfold, hcatches, hharmless⟩
    | string length str =>
      obtain ⟨hlength, hstr⟩ := hvalid _ List.mem_cons_self
      rw [Field.bytes, List.append_assoc, catchesUp_append, Harmless, Field.lagAfter]
      constructor
      · rintro ⟨lag', hfold, hcatches, hharmless⟩
        obtain ⟨lag₁, hfold₁, hcopied⟩ := Option.bind_eq_some_iff.1 hfold
        split_ifs at hcopied with hshort
        obtain rfl := lag_of_length hlength (hstr ▸ hshort) hfold₁
        obtain ⟨u, heq, hu⟩ := foldlM_lagCopied.1 hcopied
        exact ⟨⟨0, hfold₁, catchesUp_zero _⟩, hshort, ⟨u, lag', heq, hu, hcatches⟩, hharmless⟩
      · rintro ⟨⟨lag₁, hfold₁, -⟩, hshort, ⟨u, k, heq, hu, hcatches⟩, hharmless⟩
        obtain rfl := lag_of_length hlength (hstr ▸ hshort) hfold₁
        refine ⟨k, Option.bind_eq_some_iff.2 ⟨0, hfold₁, ?_⟩, hcatches, hharmless⟩
        rw [if_pos hshort]
        exact foldlM_lagCopied.2 ⟨u, heq, hu⟩

end Pace

/-- **The two readers agree exactly on harmless strings.** `FileStream` in the raw bytes of a node
returns what `PropStream` returns from the output of `getProps` if and only if every string that is
read is harmless. -/
theorem readers_agree_iff {fileContents props post : List UInt8} {type : UInt8}
    {propsBegin propsEnd : ℕ} {nodes : List Node}
    (hraw : (fileContents.drop propsBegin).take (propsEnd - propsBegin) = escape props)
    {stream : FileStream} (hnodes : 0 < stream.m_nodes)
    (hstream : stream.m_data.drop stream.m_pos = escape props ++ post) {reads : List Read}
    {values : List Value}
    (hreads : (getProps fileContents (.node type propsBegin (some propsEnd) nodes)).bind
      (propReads reads) = some values) :
    streamReads reads stream = .ok values ↔
      ∀ fs, fieldsOf reads props = some fs → Harmless fs := by
  have hprops : propReads reads props = some values := by
    rw [getProps, hraw, copyUnescaped_escape] at hreads
    split_ifs at hreads
    · cases hreads
    · exact hreads
  rw [propReads_eq] at hprops
  obtain ⟨fs, hfs, rfl⟩ := Option.map_eq_some_iff.1 hprops
  have hlags : Lags stream 0 props := ⟨hnodes, post, hstream⟩
  rw [streamReads_iff_keepsPace hlags hfs, keepsPace_iff (valid_of_fieldsOf hfs)]
  constructor
  · rintro ⟨-, hharmless⟩ fs' hfs'
    obtain rfl := Option.some.inj (hfs.symm.trans hfs')
    exact hharmless
  · exact fun hharmless => ⟨catchesUp_zero _, hharmless fs hfs⟩

/-- `readers_agree_iff` for a node with an escape byte in a number and a plain string. -/
theorem readers_agree_iff_plain :
    streamReads [.u16, .string] ⟨1, 2, [START, 1, ESCAPE, ESCAPE, 0, 2, 0, 104, 105, END]⟩ =
        .ok [.number 253, .string [104, 105]] ↔
      ∀ fs, fieldsOf [.u16, .string] [ESCAPE, 0, 2, 0, 104, 105] = some fs → Harmless fs := by
  have hraw : (([START, 1, ESCAPE, ESCAPE, 0, 2, 0, 104, 105, END] : List UInt8).drop 2).take (9 - 2) =
      escape [ESCAPE, 0, 2, 0, 104, 105] := rfl
  have hstream : ([START, 1, ESCAPE, ESCAPE, 0, 2, 0, 104, 105, END] : List UInt8).drop 2 =
      escape [ESCAPE, 0, 2, 0, 104, 105] ++ [END] := rfl
  have hreads : (getProps [START, 1, ESCAPE, ESCAPE, 0, 2, 0, 104, 105, END]
      (.node 1 2 (some 9) [])).bind (propReads [.u16, .string]) =
        some [.number 253, .string [104, 105]] := rfl
  exact readers_agree_iff hraw Nat.one_pos hstream hreads

/-- **A string with a control byte is read wrongly**: the escape in front of it becomes the
string. -/
theorem not_readers_agree :
    (getProps [START, 1, 1, 0, ESCAPE, END, END] (.node 1 2 (some 6) [])).bind
        (propReads [.string]) = some [.string [END]] ∧
      streamReads [.string] ⟨1, 2, [START, 1, 1, 0, ESCAPE, END, END]⟩ = .ok [.string [ESCAPE]] ∧
      Value.string [ESCAPE] ≠ .string [END] :=
  ⟨rfl, rfl, by decide⟩

end TiabloServer.OTB
