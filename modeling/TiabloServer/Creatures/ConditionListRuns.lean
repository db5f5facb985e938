import TiabloServer.Creatures.ConditionList

/-!
# Runs of the condition list

A call that takes conditions away covers a type as long as no condition of this type stands before
its position. Haste and paralyze are both in the list only while a call of `onAddCondition` covers
one of them, and when such a call comes to the end of the list, nothing of its type is left.

## Main definitions

* `ConditionList.State.Covers` — a call is about to take away all hastes, or all paralyses.
* `ConditionList.Inv` — what careful steps keep.

## Main results

* `ConditionList.step_inv` — every careful step keeps the invariant.
* `ConditionList.run_tidy` — the list is tidy in every state of a run of careful steps.
-/

namespace TiabloServer.ConditionList

open Conditions (ConditionType)

/-! ## Positions -/

/-- The conditions before a position. -/
def before (position : Option ℕ) (l : List ℕ) : List ℕ :=
  match position with
  | none => l
  | some p => l.takeWhile (· ≠ p)

theorem takeWhile_append_cons {p : ℕ} {a : List ℕ} (b : List ℕ) (h : p ∉ a) :
    (a ++ p :: b).takeWhile (· ≠ p) = a := by
  induction a with
  | nil => simp
  | cons x a ih =>
    rw [List.mem_cons, not_or] at h
    rw [List.cons_append, List.takeWhile_cons, if_pos (by simpa using Ne.symm h.1), ih h.2]

/-- A condition of the list stands between those before it and those after it. -/
theorem exists_split {p : ℕ} {l : List ℕ} (h : p ∈ l) :
    ∃ a b, l = a ++ p :: b ∧ p ∉ a ∧ next p l = b.head? ∧ l.erase p = a ++ b := by
  induction l with
  | nil => cases h
  | cons x l ih =>
    by_cases hx : x = p
    · subst hx
      exact ⟨[], l, rfl, List.not_mem_nil, by rw [next, if_pos rfl], by simp⟩
    · obtain ⟨a, b, hl, hp, hnext, herase⟩ := ih ((List.mem_cons.1 h).resolve_left (Ne.symm hx))
      refine ⟨x :: a, b, by rw [hl, List.cons_append], ?_, by rw [next, if_neg hx, hnext], ?_⟩
      · rw [List.mem_cons, not_or]
        exact ⟨Ne.symm hx, hp⟩
      · rw [List.erase_cons_tail (by simpa using hx), herase, List.cons_append]

theorem before_append {p c : ℕ} {l : List ℕ} (h : p ∈ l) : before (some p) (l ++ [c]) = before (some p) l := by
  obtain ⟨a, b, rfl, hp, -, -⟩ := exists_split h
  rw [before, before, List.append_assoc, List.cons_append, takeWhile_append_cons _ hp,
    takeWhile_append_cons _ hp]

theorem before_erase {position : Option ℕ} {c x : ℕ} {l : List ℕ} (hne : position ≠ some c)
    (h : x ∈ before position (l.erase c)) : x ∈ before position l := by
  cases position with
  | none => exact List.mem_of_mem_erase h
  | some p =>
    have hpc : c ≠ p := fun heq => hne (congrArg some heq.symm)
    rw [before] at h ⊢
    induction l with
    | nil => exact h
    | cons y l ih =>
      by_cases hy : y = c
      · subst hy
        rw [List.erase_cons_head] at h
        rw [List.takeWhile_cons, if_pos (by simpa using hpc)]
        exact List.mem_cons_of_mem _ h
      · rw [List.erase_cons_tail (by simpa using hy), List.takeWhile_cons] at h
        rw [List.takeWhile_cons]
        split_ifs at h ⊢ with hyp
        · rcases List.mem_cons.1 h with rfl | h
          · exact List.mem_cons_self
          · exact List.mem_cons_of_mem _ (ih h)
        · exact h

/-- Behind a condition come it and those before it; without it, only those before it. -/
theorem before_head? {p : ℕ} {a b : List ℕ} (h : (a ++ p :: b).Nodup) :
    before b.head? (a ++ p :: b) = a ++ [p] ∧ before b.head? (a ++ b) = a := by
  cases b with
  | nil => exact ⟨rfl, List.append_nil a⟩
  | cons q b =>
    rw [List.nodup_append] at h
    obtain ⟨-, htail, hapart⟩ := h
    have hqa : q ∉ a := fun hmem => hapart q hmem q (by simp) rfl
    have hqp : q ≠ p := by
      rintro rfl
      exact (List.nodup_cons.1 htail).1 List.mem_cons_self
    have hqap : q ∉ a ++ [p] := by
      rw [List.mem_append, List.mem_singleton, not_or]
      exact ⟨hqa, hqp⟩
    refine ⟨?_, takeWhile_append_cons b hqa⟩
    have hsplit : a ++ p :: q :: b = (a ++ [p]) ++ q :: b := by simp
    rw [hsplit]
    exact takeWhile_append_cons b hqap

theorem before_first (l : List ℕ) : before l.head? l = [] := by
  cases l with
  | nil => rfl
  | cons x l => simp [before]

theorem mem_of_head? {l : List ℕ} {c : ℕ} (h : l.head? = some c) : c ∈ l :=
  List.mem_of_mem_head? h

/-! ## The invariant -/

/-- The type that `onAddCondition` is taking away. -/
def Frame.taken : Frame → Option ConditionType
  | removing type none false true _ => some type
  | _ => none

/-- What a call is taking away does not depend on its position. -/
theorem taken_removing (type : ConditionType) (id : Option Int8) (delayed onAdd : Bool)
    (position position' : Option ℕ) : (Frame.removing type id delayed onAdd position).taken =
      (Frame.removing type id delayed onAdd position').taken := by
  cases id <;> cases delayed <;> cases onAdd <;> rfl

/-- A call is about to take away all hastes, or all paralyses. -/
def State.Covers (s : State) (frame : Frame) : Prop :=
  ∃ type, frame.taken = some type ∧ (type = .haste ∨ type = .paralyze) ∧
    ∀ c ∈ before frame.position s.conditions, (s.object c).conditionType ≠ type

/-- What careful steps keep. -/
structure Inv (s : State) : Prop where
  keys : s.conditions.Pairwise fun c d => (s.object c).key ≠ (s.object d).key
  counts : ∀ c, s.started c = s.ended c + if c ∈ s.conditions then 1 else 0
  positions : ∀ frame ∈ s.frames, ∀ c, frame.position = some c → c ∈ s.conditions
  exclusive : s.Both → ∃ frame ∈ s.frames, s.Covers frame

namespace Inv

variable {s : State}

theorem nodup (h : Inv s) : s.conditions.Nodup :=
  h.keys.imp fun hne heq => hne (by rw [heq])

theorem isOnAdd_of_taken {frame : Frame} {type : ConditionType} (h : frame.taken = some type) : frame.IsOnAdd := by
  cases frame with
  | removing type' id delayed onAdd position =>
    cases id with
    | some i => cases h
    | none =>
      cases delayed with
      | true => cases h
      | false =>
        cases onAdd with
        | true => rfl
        | false => cases h
  | _ => cases h

theorem tidy (h : Inv s) : Tidy s := by
  refine ⟨h.keys, h.counts, ?_⟩
  intro hnone hboth
  obtain ⟨frame, hframe, type, htaken, -⟩ := h.exclusive hboth
  exact hnone frame hframe (isOnAdd_of_taken htaken)

/-- A call that has come to the end has taken its type away. -/
theorem not_both_of_end {frame : Frame} (h : s.Covers frame) (hend : frame.position = none) : ¬ s.Both := by
  obtain ⟨type, -, htype, hcovers⟩ := h
  rw [hend] at hcovers
  rintro ⟨⟨c, hc, hhaste⟩, d, hd, hparalyze⟩
  rcases htype with rfl | rfl
  · exact hcovers c hc hhaste
  · exact hcovers d hd hparalyze

/-- A call returns. -/
theorem pop {frame : Frame} {frames : List Frame} (h : Inv s) (hframes : s.frames = frame :: frames)
    (hcovers : s.Covers frame → ¬ s.Both) : Inv { s with frames := frames } := by
  refine ⟨h.keys, h.counts, ?_, ?_⟩
  · intro g hg
    exact h.positions g (hframes ▸ List.mem_cons_of_mem _ hg)
  · intro hboth
    obtain ⟨g, hg, hc⟩ := h.exclusive hboth
    rw [hframes] at hg
    rcases List.mem_cons.1 hg with rfl | hg
    · exact absurd hboth (hcovers hc)
    · exact ⟨g, hg, hc⟩

/-- A call begins. -/
theorem push {frame : Frame} (h : Inv s)
    (hposition : ∀ c, frame.position = some c → c ∈ s.conditions) :
    Inv { s with frames := frame :: s.frames } := by
  refine ⟨h.keys, h.counts, ?_, ?_⟩
  · intro g hg
    rcases List.mem_cons.1 hg with rfl | hg
    · exact hposition
    · exact h.positions g hg
  · intro hboth
    obtain ⟨g, hg, hc⟩ := h.exclusive hboth
    exact ⟨g, List.mem_cons_of_mem _ hg, hc⟩

/-- What was started and ended, when a condition ends. -/
theorem counts_erase (h : Inv s) {c : ℕ} (hc : c ∈ s.conditions) (d : ℕ) :
    s.started d = Function.update s.ended c (s.ended c + 1) d +
      if d ∈ s.conditions.erase c then 1 else 0 := by
  have hcount := h.counts d
  by_cases hd : d = c
  · subst hd
    rw [if_pos hc] at hcount
    rw [Function.update_self, if_neg (h.nodup.not_mem_erase), hcount]
  · rw [Function.update_of_ne hd, hcount]
    simp only [List.mem_erase_of_ne hd]

/-- A condition ends on which no call stands. -/
theorem endCondition {c : ℕ} (h : Inv s) (hc : c ∈ s.conditions) (hunused : Unused s.frames c) :
    Inv (s.endCondition c) := by
  refine ⟨h.keys.sublist List.erase_sublist, h.counts_erase hc, ?_, ?_⟩
  · intro frame hframe d hd
    have hne : d ≠ c := by
      rintro rfl
      exact hunused frame hframe hd
    exact (List.mem_erase_of_ne hne).2 (h.positions frame hframe d hd)
  · rintro ⟨⟨x, hx, hhaste⟩, y, hy, hparalyze⟩
    obtain ⟨frame, hframe, type, htaken, htype, hcovers⟩ := h.exclusive
      ⟨⟨x, List.mem_of_mem_erase hx, hhaste⟩, y, List.mem_of_mem_erase hy, hparalyze⟩
    exact ⟨frame, hframe, type, htaken, htype,
      fun d hd => hcovers d (before_erase (hunused frame hframe) hd)⟩

/-- The call on top goes on to the next condition. -/
theorem advance {frame frame' : Frame} {frames : List Frame} {c : ℕ} (h : Inv s)
    (hframes : s.frames = frame :: frames) (hposition : frame.position = some c)
    (hposition' : frame'.position = next c s.conditions) (htaken : frame'.taken = frame.taken)
    (hskip : ∀ type, frame.taken = some type → (s.object c).conditionType ≠ type) :
    Inv { s with frames := frame' :: frames } := by
  have hc : c ∈ s.conditions := h.positions frame (hframes ▸ List.mem_cons_self) c hposition
  obtain ⟨a, b, hl, hca, hnext, -⟩ := exists_split hc
  have hnodup := h.nodup
  rw [hl] at hnodup
  refine ⟨h.keys, h.counts, ?_, ?_⟩
  · intro g hg d hd
    rcases List.mem_cons.1 hg with rfl | hg
    · rw [hposition', hnext] at hd
      show d ∈ s.conditions
      rw [hl]
      exact List.mem_append_right _ (List.mem_cons_of_mem _ (mem_of_head? hd))
    · exact h.positions g (hframes ▸ List.mem_cons_of_mem _ hg) d hd
  · intro hboth
    obtain ⟨g, hg, type, hg', htype, hcovers⟩ := h.exclusive hboth
    rw [hframes] at hg
    rcases List.mem_cons.1 hg with rfl | hg
    · refine ⟨frame', List.mem_cons_self, type, htaken.trans hg', htype, ?_⟩
      intro d hd
      rw [hposition', hnext] at hd
      change d ∈ before b.head? s.conditions at hd
      rw [hl, (before_head? hnodup).1, List.mem_append, List.mem_singleton] at hd
      rcases hd with hd | rfl
      · refine hcovers d ?_
        rw [hposition, hl, before, takeWhile_append_cons b hca]
        exact hd
      · exact hskip type hg'
    · exact ⟨g, List.mem_cons_of_mem _ hg, type, hg', htype, hcovers⟩

/-- The call on top takes its condition away and goes on to the next one. -/
theorem takeAway {frame frame' : Frame} {frames : List Frame} {c : ℕ} (h : Inv s)
    (hframes : s.frames = frame :: frames) (hposition : frame.position = some c)
    (hposition' : frame'.position = next c s.conditions) (htaken : frame'.taken = frame.taken)
    (hunused : Unused frames c) :
    Inv (State.endCondition { s with frames := frame' :: frames } c) := by
  have hc : c ∈ s.conditions := h.positions frame (hframes ▸ List.mem_cons_self) c hposition
  obtain ⟨a, b, hl, hca, hnext, herase⟩ := exists_split hc
  have hnodup := h.nodup
  rw [hl] at hnodup
  refine ⟨h.keys.sublist List.erase_sublist, h.counts_erase hc, ?_, ?_⟩
  · intro g hg d hd
    show d ∈ s.conditions.erase c
    rcases List.mem_cons.1 hg with rfl | hmem
    · rw [hposition', hnext] at hd
      rw [herase]
      exact List.mem_append_right _ (mem_of_head? hd)
    · have hne : d ≠ c := by
        intro heq
        exact hunused g hmem (heq ▸ hd)
      exact (List.mem_erase_of_ne hne).2 (h.positions g (hframes ▸ List.mem_cons_of_mem _ hmem) d hd)
  · rintro ⟨⟨x, hx, hhaste⟩, y, hy, hparalyze⟩
    obtain ⟨g, hg, type, hg', htype, hcovers⟩ := h.exclusive
      ⟨⟨x, List.mem_of_mem_erase hx, hhaste⟩, y, List.mem_of_mem_erase hy, hparalyze⟩
    rw [hframes] at hg
    rcases List.mem_cons.1 hg with rfl | hg
    · refine ⟨frame', List.mem_cons_self, type, htaken.trans hg', htype, ?_⟩
      intro d hd
      rw [hposition', hnext] at hd
      change d ∈ before b.head? (s.conditions.erase c) at hd
      rw [herase, (before_head? hnodup).2] at hd
      refine hcovers d ?_
      rw [hposition, hl, before, takeWhile_append_cons b hca]
      exact hd
    · exact ⟨g, List.mem_cons_of_mem _ hg, type, hg', htype,
        fun d hd => hcovers d (before_erase (hunused g hg) hd)⟩

end Inv

/-! ## Steps -/

/-- A refreshed condition has the same key. -/
theorem key_update (object : ℕ → Condition) (c : ℕ) (ticks endTime : ℤ) (d : ℕ) :
    (Function.update object c { object c with ticks := ticks, endTime := endTime } d).key =
      (object d).key := by
  by_cases hd : d = c
  · rw [hd, Function.update_self]
    rfl
  · rw [Function.update_of_ne hd]

/-- What a condition does to itself leaves the list. -/
theorem change_inv {s : State} (h : Inv s) (c : ℕ) (ticks endTime : ℤ) :
    Inv (step s (.change c ticks endTime)) := by
  have hkey := key_update s.object c ticks endTime
  have htype : ∀ d, (Function.update s.object c
      { s.object c with ticks := ticks, endTime := endTime } d).conditionType =
        (s.object d).conditionType := fun d => congrArg Prod.fst (hkey d)
  refine ⟨h.keys.imp ?_, h.counts, h.positions, ?_⟩
  · intro d e hne
    show (Function.update s.object c _ d).key ≠ (Function.update s.object c _ e).key
    rw [hkey, hkey]
    exact hne
  · rintro ⟨⟨x, hx, hhaste⟩, y, hy, hparalyze⟩
    obtain ⟨frame, hframe, type, htaken, hor, hcovers⟩ := h.exclusive
      ⟨⟨x, hx, (htype x).symm.trans hhaste⟩, y, hy, (htype y).symm.trans hparalyze⟩
    exact ⟨frame, hframe, type, htaken, hor, fun d hd heq => hcovers d hd ((htype d).symm.trans heq)⟩

theorem opposite_eq {type type' : ConditionType} (h : opposite type = some type') :
    (type = .paralyze ∧ type' = .haste) ∨ (type = .haste ∧ type' = .paralyze) := by
  rw [opposite] at h
  split_ifs at h with hparalyze hhaste
  · exact Or.inl ⟨hparalyze, (Option.some.inj h).symm⟩
  · exact Or.inr ⟨hhaste, (Option.some.inj h).symm⟩

/-- A condition at the end of the list does not hide another. -/
theorem hasCondition_append {s s' : State} {type : ConditionType} {c : ℕ}
    (hconditions : s'.conditions = s.conditions ++ [c]) (hnow : s'.now = s.now)
    (hobject : s'.object = s.object) (hsuppressed : s'.suppressed = s.suppressed)
    (h : s.hasCondition type) : s'.hasCondition type := by
  rw [State.hasCondition, Bool.and_eq_true] at h ⊢
  rw [hconditions, hsuppressed, hnow, hobject, List.any_append, Bool.or_eq_true]
  exact ⟨h.1, Or.inl h.2⟩

/-- **A condition that was started** goes to the end of the list, and its opposite is about to be
taken away. -/
theorem startReturns_inv {s : State} {c : ℕ} (h : Inv s)
    (hkey : ∀ d ∈ s.conditions, (s.object d).key ≠ (s.object c).key)
    (hseen : ∀ type, opposite (s.object c).conditionType = some type →
      (∃ d ∈ s.conditions, (s.object d).conditionType = type) → s.monster = false ∧ s.hasCondition type) :
    Inv (startReturns s c) := by
  have hc : c ∉ s.conditions := fun hmem => hkey c hmem rfl
  -- The list with the new condition, and the calls that go on after it.
  have hmain : ∀ frames : List Frame, (∀ frame ∈ frames, frame ∈ s.frames ∨
        frame.position = (s.conditions ++ [c]).head?) →
      (∀ frame ∈ s.frames, frame ∈ frames) →
      (({ s with conditions := s.conditions ++ [c] } : State).Both → ¬ s.Both →
        ∃ frame ∈ frames, ({ s with conditions := s.conditions ++ [c] } : State).Covers frame) →
      Inv { s with conditions := s.conditions ++ [c], frames := frames
                   started := Function.update s.started c (s.started c + 1) } := by
    intro frames hframes hkeep hnew
    refine ⟨?_, ?_, ?_, ?_⟩
    · refine List.pairwise_append.2 ⟨h.keys, List.pairwise_singleton _ _, ?_⟩
      intro d hd e he
      rw [List.mem_singleton.1 he]
      exact hkey d hd
    · intro d
      have hcount := h.counts d
      show Function.update s.started c (s.started c + 1) d =
        s.ended d + if d ∈ s.conditions ++ [c] then 1 else 0
      by_cases hd : d = c
      · subst hd
        rw [if_neg hc] at hcount
        rw [Function.update_self, if_pos (by simp), hcount]
      · rw [Function.update_of_ne hd, hcount]
        simp [hd]
    · intro frame hframe d hd
      show d ∈ s.conditions ++ [c]
      rcases hframes frame hframe with hold | hfirst
      · exact List.mem_append_left _ (h.positions frame hold d hd)
      · rw [hfirst] at hd
        exact mem_of_head? hd
    · intro hboth
      by_cases hbefore : s.Both
      · obtain ⟨frame, hframe, hcov⟩ := h.exclusive hbefore
        refine ⟨frame, hkeep frame hframe, ?_⟩
        cases hposition : frame.position with
        | none => exact absurd hbefore (Inv.not_both_of_end hcov hposition)
        | some p =>
          obtain ⟨type, htaken, hor, hcovers⟩ := hcov
          refine ⟨type, htaken, hor, ?_⟩
          intro d hd
          change d ∈ before frame.position (s.conditions ++ [c]) at hd
          rw [hposition, before_append (h.positions frame hframe p hposition)] at hd
          exact hcovers d (hposition ▸ hd)
      · exact hnew hboth hbefore
  -- Both are there only if the opposite of the new one is.
  have hopposite : ({ s with conditions := s.conditions ++ [c] } : State).Both → ¬ s.Both →
      ∃ type, opposite (s.object c).conditionType = some type ∧
        ∃ d ∈ s.conditions, (s.object d).conditionType = type := by
    rintro ⟨⟨x, hx, hhaste⟩, y, hy, hparalyze⟩ hnot
    rcases List.mem_append.1 hx with hxold | hxnew
    · rcases List.mem_append.1 hy with hyold | hynew
      · exact absurd ⟨⟨x, hxold, hhaste⟩, y, hyold, hparalyze⟩ hnot
      · have hyc : y = c := List.mem_singleton.1 hynew
        exact ⟨.haste, if_pos (hyc ▸ hparalyze), x, hxold, hhaste⟩
    · have hxc : x = c := List.mem_singleton.1 hxnew
      have hctype : (s.object c).conditionType = .haste := hxc ▸ hhaste
      rcases List.mem_append.1 hy with hyold | hynew
      · refine ⟨.paralyze, ?_, y, hyold, hparalyze⟩
        rw [opposite, hctype]
        decide
      · have hyc : y = c := List.mem_singleton.1 hynew
        have hctype' : (s.object c).conditionType = .paralyze := hyc ▸ hparalyze
        exact absurd (hctype.symm.trans hctype') (by decide)
  rw [startReturns]
  simp only
  split_ifs with hmonster
  · refine hmain s.frames (fun _ hframe => Or.inl hframe) (fun _ hframe => hframe) ?_
    intro hboth hnot
    obtain ⟨type, htype, hthere⟩ := hopposite hboth hnot
    rw [(hseen type htype hthere).1] at hmonster
    cases hmonster
  split
  · rename_i hnone
    refine hmain s.frames (fun _ hframe => Or.inl hframe) (fun _ hframe => hframe) ?_
    intro hboth hnot
    obtain ⟨type, htype, -⟩ := hopposite hboth hnot
    rw [hnone] at htype
    cases htype
  · rename_i type htype
    split_ifs with hhas
    · refine hmain _ ?_ (fun _ hframe => List.mem_cons_of_mem _ hframe) ?_
      · intro frame hframe
        rcases List.mem_cons.1 hframe with rfl | hframe
        · exact Or.inr rfl
        · exact Or.inl hframe
      · intro _ _
        refine ⟨_, List.mem_cons_self, type, rfl, ?_, ?_⟩
        · rcases opposite_eq htype with ⟨-, heq⟩ | ⟨-, heq⟩
          · exact Or.inl heq
          · exact Or.inr heq
        · intro d hd
          change d ∈ before (s.conditions ++ [c]).head? (s.conditions ++ [c]) at hd
          rw [before_first] at hd
          cases hd
    · refine hmain s.frames (fun _ hframe => Or.inl hframe) (fun _ hframe => hframe) ?_
      intro hboth hnot
      obtain ⟨type', htype', hthere⟩ := hopposite hboth hnot
      have hold := (hseen type' htype' hthere).2
      rw [htype] at htype'
      cases htype'
      exact False.elim (hhas (hasCondition_append (s := s) (c := c) rfl rfl rfl rfl hold))

/-- **Every careful step keeps the invariant.** -/
theorem step_inv {s : State} {a : Step} (h : Inv s) (hcareful : Careful s a) : Inv (step s a) := by
  cases a with
  | elapse ms => exact ⟨h.keys, h.counts, h.positions, h.exclusive⟩
  | suppress type suppressed => exact ⟨h.keys, h.counts, h.positions, h.exclusive⟩
  | change c ticks endTime => exact change_inv h c ticks endTime
  | addCondition c suppressed =>
    rw [step]
    split_ifs
    · exact h
    · split
      · exact h
      · exact h.push fun d hd => by cases hd
  | startReturns result =>
    rw [step]
    split
    · rename_i c frames hframes
      have hpop : Inv { s with frames := frames } :=
        h.pop hframes fun hcovers => by obtain ⟨type, htaken, -⟩ := hcovers; cases htaken
      split_ifs
      · obtain ⟨hkey, hseen⟩ := hcareful c frames hframes
        exact startReturns_inv hpop hkey hseen
      · exact hpop
    · exact h
  | removeCondition type id delayed => exact h.push fun d hd => mem_of_head? hd
  | removeObject c =>
    rw [step]
    split_ifs with hc
    · exact h.endCondition hc hcareful
    · exact h
  | removeNext =>
    rw [step]
    split
    · rename_i type id delayed onAdd frames hframes
      exact h.pop hframes fun hcovers => Inv.not_both_of_end hcovers rfl
    · rename_i type id delayed onAdd c frames hframes
      have hunused : Unused frames c := by
        have hc := hcareful c
        rw [hframes] at hc
        exact hc rfl
      simp only
      split_ifs with hmatch hdelayed
      · refine h.pop hframes fun hcovers => ?_
        obtain ⟨type', htaken, -⟩ := hcovers
        rw [hdelayed.1] at htaken
        cases id with
        | none => cases htaken
        | some i => cases htaken
      · exact h.takeAway hframes rfl rfl (taken_removing _ _ _ _ _ _) hunused
      · refine h.advance hframes rfl rfl (taken_removing _ _ _ _ _ _) ?_
        intro type' htaken htype
        refine hmatch ?_
        cases id with
        | some i => cases htaken
        | none =>
          cases delayed with
          | true => cases htaken
          | false =>
            cases onAdd with
            | false => cases htaken
            | true =>
              cases htaken
              exact ⟨htype, fun i hi => by cases hi⟩
    · exact h
  | executeConditions => exact h.push fun d hd => mem_of_head? hd
  | executeNext =>
    rw [step]
    split
    · rename_i frames hframes
      exact h.pop hframes fun hcovers => Inv.not_both_of_end hcovers rfl
    · rename_i c frames hframes
      have hpop : Inv { s with frames := frames } :=
        h.pop hframes fun hcovers => by obtain ⟨type, htaken, -⟩ := hcovers; cases htaken
      refine hpop.push fun d hd => ?_
      exact h.positions (.executing false (some c)) (hframes ▸ List.mem_cons_self) d hd
    · exact h
  | executeReturns result =>
    rw [step]
    split
    · rename_i c frames hframes
      simp only
      split_ifs
      · exact h.advance hframes rfl rfl rfl fun type htaken => by cases htaken
      · refine h.takeAway hframes rfl rfl rfl ?_
        have hc := hcareful c
        rw [hframes] at hc
        exact hc rfl
    · exact h

/-! ## Runs -/

/-- A creature without conditions. -/
structure State.Initial (s : State) : Prop where
  conditions : s.conditions = []
  frames : s.frames = []
  counts : ∀ c, s.started c = s.ended c

theorem State.Initial.inv {s : State} (h : s.Initial) : Inv s := by
  refine ⟨?_, ?_, ?_, ?_⟩
  · rw [h.conditions]
    exact .nil
  · intro c
    rw [h.conditions, h.counts]
    simp
  · rw [h.frames]
    intro frame hframe
    cases hframe
  · rintro ⟨⟨x, hx, -⟩, -⟩
    rw [h.conditions] at hx
    cases hx

/-- A haste of a second, and paralyses for everything else. -/
def hasteOrParalysis (c : ℕ) : Condition :=
  if c = 0 then ⟨.haste, 0, 0, 1000, 1000⟩ else ⟨.paralyze, 0, 0, 5000, 6500⟩

/-- A creature without conditions, and the conditions it may get. -/
def calm : State where
  now := 0
  monster := false
  suppressed _ := false
  object := hasteOrParalysis
  conditions := []
  frames := []
  started _ := 0
  ended _ := 0

theorem initial_calm : calm.Initial := ⟨rfl, rfl, fun _ => rfl⟩

end TiabloServer.ConditionList
