import TiabloServer.Lib.Runs
import TiabloServer.Otb.Readers

/-!
# Probes of a stream

`FileStream::isProp`, `startNode` and `endNode` (`io/filestream.cpp`) read a byte and step back by
one byte when it is not what they look for, also when an escape has been read with it. The checks of
`getU8` and `read` count values, without their escapes: an escape at the end of the data is followed
past it.

## Main definitions

* `OTB.Safe` — a call does not read past the end, and a probe that fails leaves the position.
* `OTB.Sound` — the escapes at the position are where a call can take them.

## Main results

* `OTB.safe_iff` — a call is safe if and only if the escapes are so.
* `OTB.run_safe` — all calls of a run are safe whose calls find the escapes so.
-/

namespace TiabloServer.OTB

namespace FileStream

variable (s : FileStream)

/-! ## The functions of the source -/

/-- `FileStream::back`. -/
def back (pos : ℕ) : FileStream := { s with m_pos := s.m_pos - pos }

/-- `FileStream::isProp`. -/
def isProp (prop : UInt8) (toNext : Bool) : Except StreamError (Bool × FileStream) := do
  let (v, s) ← s.getU8
  if v = prop.toNat then pure (true, if toNext then s else s.back 1) else pure (false, s.back 1)

/-- `FileStream::startNode`. -/
def startNode (type : UInt8) : Except StreamError (Bool × FileStream) := do
  let (v, s) ← s.getU8
  if v = START.toNat then
    if type = 0 then pure (true, { s with m_nodes := (s.m_nodes + 1) % 2 ^ 32 })
    else do
      let (w, s) ← s.getU8
      if w = type.toNat then pure (true, { s with m_nodes := (s.m_nodes + 1) % 2 ^ 32 })
      else pure (false, (s.back 1).back 1)
  else pure (false, s.back 1)

/-- `FileStream::endNode`. -/
def endNode : Except StreamError (Bool × FileStream) := do
  let (v, s) ← s.getU8
  if v = END.toNat then pure (true, { s with m_nodes := (s.m_nodes + (2 ^ 32 - 1)) % 2 ^ 32 })
  else pure (false, s.back 1)

end FileStream

/-! ## Calls -/

/-- The calls of a stream. -/
inductive Call where
  | read (r : Read)
  | isProp (prop : UInt8) (toNext : Bool)
  | startNode (type : UInt8)
  | endNode

/-- What a call returns. -/
inductive Answer where
  | value (v : Value)
  | bool (b : Bool)
deriving DecidableEq

/-- A call of a stream. -/
def FileStream.perform (s : FileStream) : Call → Except StreamError (Answer × FileStream)
  | .read r => (s.get r).map fun a => (.value a.1, a.2)
  | .isProp prop toNext => (s.isProp prop toNext).map fun a => (.bool a.1, a.2)
  | .startNode type => (s.startNode type).map fun a => (.bool a.1, a.2)
  | .endNode => s.endNode.map fun a => (.bool a.1, a.2)

/-- The stream after a call. When a call throws, what it has read before stays read: the length of a
string, or the first byte of a node. -/
def FileStream.after (s : FileStream) (c : Call) : FileStream :=
  match s.perform c with
  | .ok a => a.2
  | .error _ =>
    match c with
    | .read .string => match s.getNumber 2 with
      | .ok a => a.2
      | .error _ => s
    | .startNode _ => match s.getU8 with
      | .ok a => a.2
      | .error _ => s
    | _ => s

/-- A call reads nothing past the end of the data, and a probe that returns false leaves the
position. -/
structure Safe (s : FileStream) (c : Call) : Prop where
  inside : s.perform c ≠ .error .pastEnd
  transparent : ∀ s', s.perform c = .ok (.bool false, s') → s'.m_pos = s.m_pos

/-! ## Escapes -/

/-- Some values can be read with their escapes. -/
def Readable : ℕ → List UInt8 → Prop
  | 0, _ => True
  | _ + 1, [] => False
  | n + 1, [b] => b ≠ ESCAPE ∧ n = 0
  | n + 1, b :: c :: l => if b = ESCAPE then Readable n l else Readable n (c :: l)

/-- A byte that is read, with the number of bytes it takes. -/
def readByte (m_nodes : ℕ) : List UInt8 → Except StreamError (UInt8 × ℕ)
  | [] => .error .failure
  | b :: l =>
    if 0 < m_nodes ∧ b = ESCAPE then l.head?.elim (.error .pastEnd) fun v => .ok (v, 2)
    else .ok (b, 1)

/-- If the next byte is an escape, then it is one of the byte that is looked for. -/
def Sought (m_nodes : ℕ) (b : UInt8) (left : List UInt8) : Prop :=
  0 < m_nodes → left.head? = some ESCAPE → left[1]? = some b

/-- The escapes at the position are where a call can take them: a number has all its bytes, and a
probe finds what it looks for where a byte is escaped. Behind a `START` that is escaped itself, the
byte of the type has to be the one that is looked for. -/
def Sound (s : FileStream) : Call → Prop
  | .read r => r.size ≤ s.left.length → 0 < s.m_nodes → Readable r.size s.left
  | .isProp prop _ => Sought s.m_nodes prop s.left
  | .endNode => Sought s.m_nodes END s.left
  | .startNode type =>
    Sought s.m_nodes START s.left ∧
      (type ≠ 0 → ∀ n, readByte s.m_nodes s.left = .ok (START, n) →
        if n = 1 then Sought s.m_nodes type (s.left.drop n)
        else s.left.drop n = [] ∨ ∃ m, readByte s.m_nodes (s.left.drop n) = .ok (type, m))

variable {s : FileStream}

theorem FileStream.length_left (s : FileStream) : s.left.length = s.m_data.length - s.m_pos :=
  List.length_drop

theorem FileStream.getU8_eq_readByte (s : FileStream) :
    s.getU8 = (readByte s.m_nodes s.left).map fun r => (r.1.toNat, s.advance r.2) := by
  have hlength := s.length_left
  unfold getU8
  cases hleft : s.left with
  | nil =>
    rw [hleft, List.length_nil] at hlength
    rw [if_pos (by omega)]
    rfl
  | cons b l =>
    rw [hleft, List.length_cons] at hlength
    rw [if_neg (by omega), byte_of_left hleft, readByte]
    simp only [bind, Except.bind]
    by_cases hescape : 0 < s.m_nodes ∧ b = ESCAPE
    · rw [if_pos hescape, if_pos hescape]
      have hnext : (s.advance 1).left = l := by rw [left_advance, hleft, List.drop_one, List.tail_cons]
      cases l with
      | nil =>
        have hend : (s.advance 1).byte = .error .pastEnd := by
          have hnone : (s.advance 1).m_data[(s.advance 1).m_pos]? = none := by
            rw [← List.head?_drop]
            exact congrArg List.head? hnext
          rw [byte, hnone]
        rw [hend]
        rfl
      | cons v l =>
        rw [byte_of_left hnext]
        rfl
    · rw [if_neg hescape, if_neg hescape, byte_of_left hleft]
      rfl

/-! ## Probes for one byte -/

theorem eq_one_or_two_of_readByte {m_nodes : ℕ} {left : List UInt8} {v : UInt8} {n : ℕ}
    (h : readByte m_nodes left = .ok (v, n)) : n = 1 ∨ n = 2 := by
  cases left with
  | nil => cases h
  | cons x l =>
    rw [readByte] at h
    split_ifs at h
    · cases l with
      | nil => cases h
      | cons y l => exact .inr (Prod.mk.inj (Except.ok.inj h)).2.symm
    · exact .inl (Prod.mk.inj (Except.ok.inj h)).2.symm

theorem readByte_eq_failure {m_nodes : ℕ} {left : List UInt8} (h : readByte m_nodes left = .error .failure) :
    left = [] := by
  cases left with
  | nil => rfl
  | cons x l =>
    rw [readByte] at h
    split_ifs at h
    cases l <;> cases h

/-- A byte is there where one is escaped: there is none left, or it is read, or one without an
escape. -/
theorem sought_iff (m_nodes : ℕ) (b : UInt8) (left : List UInt8) :
    Sought m_nodes b left ↔ left = [] ∨ ∃ v n, readByte m_nodes left = .ok (v, n) ∧ (v = b ∨ n = 1) := by
  cases left with
  | nil => exact iff_of_true (by simp [Sought]) (.inl rfl)
  | cons x l =>
    by_cases hescape : 0 < m_nodes ∧ x = ESCAPE
    · obtain ⟨hnodes, rfl⟩ := hescape
      cases l with
      | nil => simp [Sought, readByte, hnodes]
      | cons v l => simp [Sought, readByte, hnodes]
    · refine iff_of_true (fun hnodes hhead => ?_) (.inr ⟨x, 1, by rw [readByte, if_neg hescape], .inr rfl⟩)
      exact absurd ⟨hnodes, by simpa using hhead⟩ hescape

/-- A call that ends with one byte is safe if it throws, finds the byte it looks for, or steps back
to where it was. -/
theorem safe_iff_read {c : Call} {b : UInt8} {left : List UInt8} (found lost : UInt8 × ℕ → FileStream)
    (h : s.perform c = (readByte s.m_nodes left).map fun r =>
      if r.1 = b then (.bool true, found r) else (.bool false, lost r)) :
    Safe s c ↔ left = [] ∨ ∃ v n, readByte s.m_nodes left = .ok (v, n) ∧
      (v = b ∨ (lost (v, n)).m_pos = s.m_pos) := by
  cases hread : readByte s.m_nodes left with
  | error e =>
    rw [hread] at h
    cases e with
    | failure =>
      exact iff_of_true ⟨by simp [h, Except.map], by simp [h, Except.map]⟩ (.inl (readByte_eq_failure hread))
    | pastEnd =>
      refine iff_of_false (fun hsafe => hsafe.inside (by simp [h, Except.map])) ?_
      rintro (rfl | ⟨v, n, hok, -⟩)
      · cases hread
      · cases hok
  | ok r =>
    obtain ⟨v, n⟩ := r
    rw [hread] at h
    have hsome : left ≠ [] := by
      rintro rfl
      cases hread
    rw [or_iff_right hsome]
    by_cases hv : v = b
    · exact iff_of_true ⟨by simp [h, Except.map], by simp [h, Except.map, hv]⟩ ⟨v, n, rfl, .inl hv⟩
    · constructor
      · intro hsafe
        exact ⟨v, n, rfl, .inr (hsafe.transparent (lost (v, n)) (by simp [h, Except.map, hv]))⟩
      · rintro ⟨v', n', hok, hor⟩
        obtain ⟨rfl, rfl⟩ := Prod.mk.inj (Except.ok.inj hok)
        refine ⟨by simp [h, Except.map], fun s' hs' => ?_⟩
        obtain rfl : lost (v, n) = s' := by simpa [h, Except.map, hv] using hs'
        exact hor.resolve_left hv

/-- **A probe for one byte** is safe if and only if that byte is there where one is escaped. -/
theorem safe_iff_sought {c : Call} {b : UInt8} (found : UInt8 × ℕ → FileStream)
    (h : s.perform c = (readByte s.m_nodes s.left).map fun r =>
      if r.1 = b then (.bool true, found r) else (.bool false, (s.advance r.2).back 1)) :
    Safe s c ↔ Sought s.m_nodes b s.left := by
  rw [safe_iff_read found _ h, sought_iff]
  refine or_congr_right (exists₂_congr fun v n => and_congr_right fun hread => or_congr_right ?_)
  have hn := eq_one_or_two_of_readByte hread
  show s.m_pos + n - 1 = s.m_pos ↔ n = 1
  omega

theorem perform_isProp (s : FileStream) (prop : UInt8) (toNext : Bool) :
    s.perform (.isProp prop toNext) = (readByte s.m_nodes s.left).map fun r =>
      if r.1 = prop then (.bool true, if toNext then s.advance r.2 else (s.advance r.2).back 1)
      else (.bool false, (s.advance r.2).back 1) := by
  rw [FileStream.perform, FileStream.isProp, FileStream.getU8_eq_readByte]
  cases readByte s.m_nodes s.left with
  | error e => rfl
  | ok r =>
    simp only [Except.map, bind, Except.bind, UInt8.toNat_inj]
    split_ifs <;> rfl

theorem perform_endNode (s : FileStream) :
    s.perform .endNode = (readByte s.m_nodes s.left).map fun r =>
      if r.1 = END then
        (.bool true, { s.advance r.2 with m_nodes := ((s.advance r.2).m_nodes + (2 ^ 32 - 1)) % 2 ^ 32 })
      else (.bool false, (s.advance r.2).back 1) := by
  rw [FileStream.perform, FileStream.endNode, FileStream.getU8_eq_readByte]
  cases readByte s.m_nodes s.left with
  | error e => rfl
  | ok r =>
    simp only [Except.map, bind, Except.bind, UInt8.toNat_inj]
    split_ifs <;> rfl

/-! ## The start of a node -/

theorem perform_startNode (s : FileStream) (type : UInt8) :
    s.perform (.startNode type) = (readByte s.m_nodes s.left).bind fun r =>
      if r.1 = START then
        if type = 0 then .ok (.bool true, { s.advance r.2 with m_nodes := (s.m_nodes + 1) % 2 ^ 32 })
        else (readByte s.m_nodes (s.left.drop r.2)).map fun q =>
          if q.1 = type then
            (.bool true, { (s.advance r.2).advance q.2 with m_nodes := (s.m_nodes + 1) % 2 ^ 32 })
          else (.bool false, (((s.advance r.2).advance q.2).back 1).back 1)
      else .ok (.bool false, (s.advance r.2).back 1) := by
  rw [FileStream.perform, FileStream.startNode, FileStream.getU8_eq_readByte]
  cases readByte s.m_nodes s.left with
  | error e => rfl
  | ok r =>
    simp only [Except.map, bind, Except.bind, UInt8.toNat_inj]
    split_ifs
    · rfl
    · have hsecond := FileStream.getU8_eq_readByte (s.advance r.2)
      rw [FileStream.left_advance, show (s.advance r.2).m_nodes = s.m_nodes from rfl] at hsecond
      rw [hsecond]
      cases readByte s.m_nodes (s.left.drop r.2) with
      | error e => rfl
      | ok q =>
        simp only [Except.map, UInt8.toNat_inj]
        split_ifs <;> rfl
    · rfl

/-- **The start of a node** is safe to look for if and only if its bytes are there where one is
escaped. -/
theorem safe_startNode_iff (s : FileStream) (type : UInt8) :
    Safe s (.startNode type) ↔ Sound s (.startNode type) := by
  have h := perform_startNode s type
  simp only [Sound]
  cases hread : readByte s.m_nodes s.left with
  | error e =>
    rw [hread] at h
    have hsought : Sought s.m_nodes START s.left ↔ s.left = [] := by
      rw [sought_iff, hread]
      simp
    rw [hsought, and_iff_left (fun _ n hn => by cases hn)]
    cases e with
    | failure =>
      exact iff_of_true ⟨by simp [h, Except.bind], by simp [h, Except.bind]⟩ (readByte_eq_failure hread)
    | pastEnd =>
      refine iff_of_false (fun hsafe => hsafe.inside (by simp [h, Except.bind])) fun hnil => ?_
      rw [hnil] at hread
      cases hread
  | ok r =>
    obtain ⟨v, n⟩ := r
    have hn := eq_one_or_two_of_readByte hread
    rw [hread] at h
    have hsome : s.left ≠ [] := by
      rintro hnil
      rw [hnil] at hread
      cases hread
    have hsought : Sought s.m_nodes START s.left ↔ v = START ∨ n = 1 := by
      rw [sought_iff, or_iff_right hsome, hread]
      simp
    rw [hsought]
    by_cases hv : v = START
    · subst hv
      rw [and_iff_right (.inl rfl)]
      by_cases htype : type = 0
      · subst htype
        refine iff_of_true ⟨?_, ?_⟩ fun hne => absurd rfl hne
        · simp [h, Except.bind]
        · simp [h, Except.bind]
      · simp only [Except.bind, if_true, htype, if_false] at h
        rw [safe_iff_read _ _ h]
        have hlost (m : ℕ) : ((((s.advance n).advance m).back 1).back 1).m_pos = s.m_pos + n + m - 1 - 1 := rfl
        simp only [ne_eq, htype, not_false_eq_true, true_imp_iff, Except.ok.injEq, Prod.mk.injEq, true_and,
          forall_eq', hlost]
        obtain rfl | rfl := hn
        · rw [if_pos rfl, sought_iff]
          refine or_congr_right (exists₂_congr fun w m => and_congr_right fun hm => or_congr_right ?_)
          have hm' := eq_one_or_two_of_readByte hm
          omega
        · rw [if_neg (by decide)]
          refine or_congr_right ⟨?_, ?_⟩
          · rintro ⟨w, m, hm, rfl | hpos⟩
            · exact ⟨m, hm⟩
            · have hm' := eq_one_or_two_of_readByte hm
              omega
          · rintro ⟨m, hm⟩
            exact ⟨type, m, hm, .inl rfl⟩
    · have hvacuous : ∀ n', (Except.ok (v, n) : Except StreamError (UInt8 × ℕ)) = .ok (START, n') → False :=
        fun n' hok => hv (Prod.mk.inj (Except.ok.inj hok)).1
      rw [or_iff_right hv, and_iff_left fun _ n' hok => (hvacuous n' hok).elim]
      simp only [Except.bind, hv, if_false] at h
      have hpos : ((s.advance n).back 1).m_pos = s.m_pos ↔ n = 1 := by
        show s.m_pos + n - 1 = s.m_pos ↔ n = 1
        omega
      rw [← hpos]
      refine ⟨fun hsafe => hsafe.transparent _ h, fun hback => ⟨by simp [h], fun s' hs' => ?_⟩⟩
      obtain rfl : (s.advance n).back 1 = s' := by simpa [h] using hs'
      exact hback

/-! ## Numbers and strings -/

theorem FileStream.next_nil {s : FileStream} (h : s.left = []) : s.next = .error .pastEnd := by
  have hbyte : s.byte = .error .pastEnd := by
    have hnone : s.m_data[s.m_pos]? = none := by
      rw [← List.head?_drop]
      exact congrArg List.head? h
    rw [byte, hnone]
  rw [next, hbyte]
  rfl

theorem FileStream.next_lone_escape {s : FileStream} (h : s.left = [ESCAPE]) : s.next = .error .pastEnd := by
  have hlast : (s.advance 1).left = [] := by rw [left_advance, h, List.drop_one, List.tail_cons]
  have hbyte : (s.advance 1).byte = .error .pastEnd := by
    have hnone : (s.advance 1).m_data[(s.advance 1).m_pos]? = none := by
      rw [← List.head?_drop]
      exact congrArg List.head? hlast
    rw [byte, hnone]
  simp only [next, byte_of_left h, bind, Except.bind, if_true, hbyte]

/-- The loop of `read` goes past the end exactly when the values with their escapes are not all
there. -/
theorem readEscaped_pastEnd_iff (n : ℕ) (s : FileStream) :
    s.readEscaped n = .error .pastEnd ↔ ¬ Readable n s.left := by
  induction n generalizing s with
  | zero => simp [FileStream.readEscaped, Readable, pure, Except.pure]
  | succ n ih =>
    have hstep {v : UInt8} {t : List UInt8} (hnext : ∃ s', s.next = .ok (v, s') ∧ s'.left = t ∧
        s'.m_nodes = s.m_nodes) : s.readEscaped (n + 1) = .error .pastEnd ↔ ¬ Readable n t := by
      obtain ⟨s', hs', rfl, -⟩ := hnext
      rw [← ih s', FileStream.readEscaped]
      simp only [hs', bind, Except.bind]
      cases s'.readEscaped n with
      | error e => rfl
      | ok r => simp [pure, Except.pure]
    cases hleft : s.left with
    | nil =>
      refine iff_of_true ?_ (by simp [Readable])
      rw [FileStream.readEscaped, FileStream.next_nil hleft]
      rfl
    | cons b l =>
      by_cases hb : b = ESCAPE
      · subst hb
        cases l with
        | nil =>
          refine iff_of_true ?_ (by simp [Readable])
          rw [FileStream.readEscaped, FileStream.next_lone_escape hleft]
          rfl
        | cons c l =>
          rw [hstep (FileStream.next_escape hleft), Readable, if_pos rfl]
      · rw [hstep (FileStream.next_other hleft hb)]
        cases l with
        | nil => cases n <;> simp [Readable, hb]
        | cons c l => rw [Readable, if_neg hb]

theorem getNumber_pastEnd_iff {size : ℕ} (hsize : 0 < size) (s : FileStream) :
    s.getNumber size = .error .pastEnd ↔ ¬ (size ≤ s.left.length → 0 < s.m_nodes → Readable size s.left) := by
  have hlength := s.length_left
  rw [FileStream.getNumber, FileStream.read]
  by_cases hshort : s.m_pos + size > s.m_data.length
  · rw [if_pos hshort]
    exact iff_of_false (by simp [bind, Except.bind]) (not_not.2 fun hle => by omega)
  · rw [if_neg hshort, Classical.not_imp, and_iff_right (by omega)]
    by_cases hnodes : 0 < s.m_nodes
    · rw [if_pos (decide_eq_true hnodes), Classical.not_imp, and_iff_right hnodes, ← readEscaped_pastEnd_iff]
      cases s.readEscaped size with
      | error e => simp [bind, Except.bind]
      | ok r => simp [bind, Except.bind, pure, Except.pure]
    · rw [if_neg (by simpa using hnodes)]
      exact iff_of_false (by simp [bind, Except.bind, pure, Except.pure]) (not_not.2 fun h => absurd h hnodes)

theorem getU8_pastEnd_iff (s : FileStream) :
    s.getU8 = .error .pastEnd ↔ ¬ (1 ≤ s.left.length → 0 < s.m_nodes → Readable 1 s.left) := by
  by_cases hnodes : 0 < s.m_nodes
  · rw [getU8_eq hnodes, getNumber_pastEnd_iff Nat.one_pos]
  · refine iff_of_false ?_ (not_not.2 fun _ h => absurd h hnodes)
    rw [FileStream.getU8_eq_readByte]
    cases s.left with
    | nil => simp [readByte, Except.map]
    | cons b l => simp [readByte, hnodes, Except.map]

theorem getString_pastEnd_iff (s : FileStream) :
    s.getString = .error .pastEnd ↔ s.getNumber 2 = .error .pastEnd := by
  rw [FileStream.getString]
  cases s.getNumber 2 with
  | error e => simp [bind, Except.bind]
  | ok r =>
    simp only [bind, Except.bind, reduceCtorEq, iff_false]
    split_ifs <;> simp [pure, Except.pure]

theorem get_pastEnd_iff (s : FileStream) (r : Read) : s.get r = .error .pastEnd ↔ ¬ Sound s (.read r) := by
  have hmap {α : Type} (x : Except StreamError (α × FileStream)) (f : α → Value) :
      (do let (n, s) ← x; pure (f n, s)) = (Except.error .pastEnd : Except StreamError (Value × FileStream)) ↔
        x = .error .pastEnd := by
    cases x with
    | error e => simp [bind, Except.bind]
    | ok a => simp [bind, Except.bind, pure, Except.pure]
  cases r with
  | u8 => exact (hmap _ _).trans (getU8_pastEnd_iff s)
  | u16 => exact (hmap _ _).trans (getNumber_pastEnd_iff (by decide) s)
  | u32 => exact (hmap _ _).trans (getNumber_pastEnd_iff (by decide) s)
  | u64 => exact (hmap _ _).trans (getNumber_pastEnd_iff (by decide) s)
  | string => exact (hmap _ _).trans ((getString_pastEnd_iff s).trans (getNumber_pastEnd_iff (by decide) s))

/-- **A call is safe if and only if the escapes are where it can take them.** -/
theorem safe_iff (s : FileStream) (c : Call) : Safe s c ↔ Sound s c := by
  cases c with
  | isProp prop toNext => exact safe_iff_sought _ (perform_isProp s prop toNext)
  | endNode => exact safe_iff_sought _ (perform_endNode s)
  | startNode type => exact safe_startNode_iff s type
  | read r =>
    have hperform : s.perform (.read r) = .error .pastEnd ↔ s.get r = .error .pastEnd := by
      rw [FileStream.perform]
      cases s.get r with
      | error e => simp [Except.map]
      | ok a => simp [Except.map]
    have hvalue : ∀ s', s.perform (.read r) ≠ .ok (.bool false, s') := by
      intro s'
      rw [FileStream.perform]
      cases s.get r <;> simp [Except.map]
    rw [← not_iff_not, ← get_pastEnd_iff, ← hperform]
    refine ⟨fun h => not_not.1 fun hinside => h ⟨hinside, fun s' hs' => absurd hs' (hvalue s')⟩, fun h hsafe =>
      hsafe.inside h⟩

/-! ## Runs -/

/-- **All calls of a run are safe** whose calls find the escapes where they can take them, in data
so short that the sums of positions are no more than 32 bits. -/
theorem run_safe (s : FileStream) {l : List Call}
    (hl : Runs.Meets FileStream.after (fun s c => s.m_data.length + 8192 ≤ 2 ^ 32 ∧ Sound s c) s l) :
    ∀ l₁ c l₂, l = l₁ ++ c :: l₂ → Safe (Runs.run FileStream.after s l₁) c :=
  (Runs.invariant_steps FileStream.after (P := fun _ => True)
    (fun s c _ hc => ⟨trivial, (safe_iff s c).2 hc.2⟩) trivial hl).2

/-- A node of type 2 with one byte: the probe for a property in it fails and leaves the byte to be
read. -/
theorem run_safe_node :
    Safe (Runs.run FileStream.after ⟨0, 0, [START, 2, 7, END]⟩ [.startNode 2]) (.isProp 3 true) := by
  refine run_safe ⟨0, 0, [START, 2, 7, END]⟩ (l := [.startNode 2, .isProp 3 true, .read .u8])
    ⟨⟨by decide, ?_⟩, ⟨by decide, ?_⟩, ⟨by decide, ?_⟩, trivial⟩ [.startNode 2] (.isProp 3 true) [.read .u8] rfl
  · refine ⟨fun h => absurd h (by decide), fun _ n hn => ?_⟩
    obtain rfl : 1 = n := by simpa [readByte, FileStream.left] using hn
    exact fun h => absurd h (by decide)
  · exact fun _ h => absurd (show some 7 = some ESCAPE from h) (by decide)
  · intro _ _
    show Readable 1 [7, END]
    simp [Readable, ESCAPE]

/-- A probe for a property that reads an escaped byte leaves the position behind the escape. -/
theorem not_safe_escaped :
    ¬ ∀ (s : FileStream) (l l₁ l₂ : List Call) (c : Call), s.m_data.length < 2 ^ 32 → l = l₁ ++ c :: l₂ →
      Safe (Runs.run FileStream.after s l₁) c := by
  intro h
  have hsafe := h ⟨1, 0, [ESCAPE, START, 7]⟩ [.isProp 3 true] [] [] (.isProp 3 true) (by decide) rfl
  exact absurd (hsafe.transparent ⟨1, 1, [ESCAPE, START, 7]⟩ rfl) (by decide)

end TiabloServer.OTB
