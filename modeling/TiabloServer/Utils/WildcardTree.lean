import TiabloServer.Lib.Assoc

/-!
# The wildcard tree

`WildcardTreeNode` (`utils/wildcardtree.cpp`) is a tree of the characters of names. It answers which
name begins with a query, if there is only one.

## Main definitions

* `WildcardTree.Tidy` — every node below the root is needed for a name.
* `WildcardTree.Answers` — the answer of a set of names.

## Main results

* `WildcardTree.contains_insert`, `WildcardTree.contains_remove` — the names after an operation.
* `WildcardTree.answers_iff` — the tree answers like the set of its names, except that an empty tree
  has a name for the empty query.
-/

namespace TiabloServer.WildcardTree

/-! ## The tree -/

/-- `WildcardTreeNode`. -/
inductive Node (α : Type*) where
  | mk (breakpoint : Bool) (children : List (α × Node α))

namespace Node

variable {α : Type*}

/-- A node that ends a name. -/
def breakpoint : Node α → Bool
  | mk breakpoint _ => breakpoint

def children : Node α → List (α × Node α)
  | mk _ children => children

@[simp]
theorem breakpoint_mk (breakpoint : Bool) (children : List (α × Node α)) :
    (mk breakpoint children).breakpoint = breakpoint := rfl

@[simp]
theorem children_mk (breakpoint : Bool) (children : List (α × Node α)) :
    (mk breakpoint children).children = children := rfl

/-- A node that ends a name or has children. -/
def Used (n : Node α) : Prop := n.breakpoint = true ∨ n.children ≠ []

instance (n : Node α) : Decidable n.Used :=
  decidable_of_iff (n.breakpoint = true ∨ n.children.isEmpty = false) (by
    rw [Used, ne_eq, ← List.isEmpty_iff, Bool.not_eq_true])

end Node

/-- The values that `findOne` returns. -/
inductive ReturnValue where
  | RETURNVALUE_NOERROR
  | RETURNVALUE_NAMEISTOOAMBIGUOUS
  | RETURNVALUE_PLAYERWITHTHISNAMEISNOTONLINE
  deriving DecidableEq

open ReturnValue

section Tree

variable {α : Type*} [DecidableEq α]

/-- `addChild`: the child of a character, with a breakpoint if it gets one. -/
def addChild (n : Node α) (ch : α) (breakp : Bool) : Node α :=
  match Assoc.get n.children ch with
  | some child => .mk (child.breakpoint || breakp) child.children
  | none => .mk breakp []

/-- `insert`, of a name that is not empty. -/
def insert (n : Node α) : List α → Node α
  | [] => n
  | [ch] => .mk n.breakpoint (Assoc.put n.children ch (addChild n ch true))
  | ch :: str => .mk n.breakpoint (Assoc.put n.children ch (insert (addChild n ch false) str))

/-- The node after `remove`, unless the name leads out of the tree. -/
def removeFrom (n : Node α) : List α → Option (Node α)
  | [] => some (.mk false n.children)
  | ch :: str =>
    match Assoc.get n.children ch with
    | none => none
    | some child =>
      (removeFrom child str).map fun child =>
        if child.Used then .mk n.breakpoint (Assoc.put n.children ch child)
        else .mk n.breakpoint (Assoc.erase n.children ch)

def remove (n : Node α) (str : List α) : Node α := (removeFrom n str).getD n

/-- The node at the end of a query. -/
def follow (n : Node α) : List α → Option (Node α)
  | [] => some n
  | ch :: query => (Assoc.get n.children ch).bind fun child => follow child query

/-- The loop of `findOne` from the end of the query on. -/
def descend : Node α → List α → ReturnValue × List α
  | .mk _ [], result => (RETURNVALUE_NOERROR, result)
  | .mk breakpoint [(ch, child)], result =>
    if breakpoint then (RETURNVALUE_NAMEISTOOAMBIGUOUS, result)
    else descend child (result ++ [ch])
  | .mk _ (_ :: _ :: _), result => (RETURNVALUE_NAMEISTOOAMBIGUOUS, result)

def findOne (n : Node α) (query : List α) : ReturnValue × List α :=
  match follow n query with
  | some cur => descend cur query
  | none => (RETURNVALUE_PLAYERWITHTHISNAMEISNOTONLINE, [])

/-! ## Names -/

/-- A name that a tree has. -/
def Contains (n : Node α) : List α → Prop
  | [] => n.breakpoint = true
  | ch :: str => ∃ child, Assoc.get n.children ch = some child ∧ Contains child str

/-- No character has two children, and every child ends a name or has children. -/
inductive Tidy : Node α → Prop
  | mk {breakpoint : Bool} {children : List (α × Node α)} (distinct : Assoc.Distinct children)
      (tidy : ∀ ch child, (ch, child) ∈ children → Tidy child)
      (used : ∀ ch child, (ch, child) ∈ children → child.Used) : Tidy (.mk breakpoint children)

/-- The answer of a set of names to a query. -/
structure Answers (names : Set (List α)) (query : List α) (answer : ReturnValue × List α) : Prop where
  one : ∀ result, answer = (RETURNVALUE_NOERROR, result) ↔
    result ∈ names ∧ query <+: result ∧ ∀ name ∈ names, query <+: name → name = result
  ambiguous : answer.1 = RETURNVALUE_NAMEISTOOAMBIGUOUS ↔
    ∃ a ∈ names, ∃ b ∈ names, a ≠ b ∧ query <+: a ∧ query <+: b
  none : answer.1 = RETURNVALUE_PLAYERWITHTHISNAMEISNOTONLINE ↔ ∀ name ∈ names, ¬ query <+: name

/-! ## Operations -/

variable {n : Node α}

omit [DecidableEq α] in
theorem Tidy.distinct (h : Tidy n) : Assoc.Distinct n.children := by
  cases h with
  | mk distinct _ _ => exact distinct

theorem Tidy.child (h : Tidy n) {ch : α} {child : Node α}
    (hchild : Assoc.get n.children ch = some child) : Tidy child ∧ child.Used := by
  cases h with
  | mk distinct tidy used =>
    exact ⟨tidy ch child (Assoc.mem_of_get hchild), used ch child (Assoc.mem_of_get hchild)⟩

/-- Putting a tidy child that is needed keeps a node tidy. -/
theorem Tidy.put (h : Tidy n) (breakpoint : Bool) {ch : α} {child : Node α} (hchild : Tidy child)
    (hused : child.Used) : Tidy (.mk breakpoint (Assoc.put n.children ch child)) := by
  have hput : ∀ ch' child', (ch', child') ∈ Assoc.put n.children ch child →
      Tidy child' ∧ child'.Used := by
    intro ch' child' hmem
    rw [← Assoc.get_eq_some_iff (h.distinct.put ch child), Assoc.get_put] at hmem
    split_ifs at hmem with heq
    · rw [← Option.some.inj hmem]
      exact ⟨hchild, hused⟩
    · exact h.child hmem
  exact ⟨h.distinct.put ch child, fun ch' child' hmem => (hput ch' child' hmem).1,
    fun ch' child' hmem => (hput ch' child' hmem).2⟩

theorem Tidy.erase (h : Tidy n) (breakpoint : Bool) (ch : α) :
    Tidy (.mk breakpoint (Assoc.erase n.children ch)) := by
  have hmem : ∀ ch' child', (ch', child') ∈ Assoc.erase n.children ch →
      Assoc.get n.children ch' = some child' := fun ch' child' hmem =>
    (Assoc.get_eq_some_iff h.distinct).2 (List.mem_of_mem_filter hmem)
  exact ⟨h.distinct.erase ch, fun ch' child' h' => (h.child (hmem ch' child' h')).1,
    fun ch' child' h' => (h.child (hmem ch' child' h')).2⟩

omit [DecidableEq α] in
theorem Tidy.mk_breakpoint (h : Tidy n) (breakpoint : Bool) : Tidy (.mk breakpoint n.children) := by
  cases h with
  | mk distinct tidy used => exact ⟨distinct, tidy, used⟩

omit [DecidableEq α] in
theorem tidy_new (breakpoint : Bool) : Tidy (.mk breakpoint [] : Node α) :=
  ⟨List.nodup_nil, fun _ _ h => absurd h List.not_mem_nil, fun _ _ h => absurd h List.not_mem_nil⟩

theorem put_ne_nil (children : List (α × Node α)) (ch : α) (child : Node α) : Assoc.put children ch child ≠ [] := by
  intro heq
  have hmem : ch ∈ (Assoc.put children ch child).map Prod.fst := Assoc.mem_keys_put.2 (Or.inl rfl)
  rw [heq] at hmem
  cases hmem

theorem Tidy.addChild (h : Tidy n) (ch : α) (breakp : Bool) : Tidy (addChild n ch breakp) := by
  rw [WildcardTree.addChild]
  cases hget : Assoc.get n.children ch with
  | none => exact tidy_new breakp
  | some child => exact (h.child hget).1.mk_breakpoint _

theorem breakpoint_addChild (n : Node α) (ch : α) : (addChild n ch true).breakpoint = true := by
  rw [addChild]
  cases Assoc.get n.children ch with
  | none => rfl
  | some child => exact Bool.or_true _

/-- A child that is added has the names that it had, and its own end if it gets a breakpoint. -/
theorem contains_addChild (n : Node α) (ch : α) (breakp : Bool) (str : List α) :
    Contains (addChild n ch breakp) str ↔ Contains n (ch :: str) ∨ (breakp = true ∧ str = []) := by
  rw [addChild]
  cases hget : Assoc.get n.children ch with
  | none =>
    cases str with
    | nil => simp [Contains, hget]
    | cons c str => simp [Contains, Assoc.get, hget]
  | some child =>
    cases str with
    | nil => simp [Contains, hget]
    | cons c str => simp [Contains, hget]

/-- The names after a child has been put. -/
theorem contains_put (n : Node α) (ch : α) (child : Node α) (c : α) (str : List α) :
    Contains (.mk n.breakpoint (Assoc.put n.children ch child)) (c :: str) ↔
      if c = ch then Contains child str else Contains n (c :: str) := by
  simp only [Contains, Node.children_mk, Assoc.get_put]
  split_ifs with heq
  · simp
  · rfl

/-- **Inserting** a name adds it, and keeps the tree tidy. -/
theorem insert_spec (h : Tidy n) {str : List α} (hstr : str ≠ []) :
    Tidy (insert n str) ∧ (insert n str).children ≠ [] ∧
      ∀ name, Contains (insert n str) name ↔ Contains n name ∨ name = str := by
  induction str generalizing n with
  | nil => exact absurd rfl hstr
  | cons ch str ih =>
    -- the child that is put, and what it has
    have hchild : ∃ child, insert n (ch :: str) =
        .mk n.breakpoint (Assoc.put n.children ch child) ∧ Tidy child ∧ child.Used ∧
        ∀ name, Contains child name ↔ Contains n (ch :: name) ∨ name = str := by
      cases str with
      | nil =>
        refine ⟨_, rfl, h.addChild ch true, Or.inl (breakpoint_addChild n ch), fun name => ?_⟩
        rw [contains_addChild]
        simp only [true_and]
      | cons c str =>
        obtain ⟨htidy, hne, hcontains⟩ := ih (h.addChild ch false) (List.cons_ne_nil c str)
        refine ⟨_, rfl, htidy, Or.inr hne, fun name => ?_⟩
        rw [hcontains, contains_addChild]
        simp only [Bool.false_eq_true, false_and, or_false]
    obtain ⟨child, heq, htidy, hused, hcontains⟩ := hchild
    rw [heq]
    refine ⟨h.put _ htidy hused, put_ne_nil _ _ _, fun name => ?_⟩
    cases name with
    | nil => simp [Contains]
    | cons c name =>
      rw [contains_put]
      split_ifs with hc
      · rw [hcontains, hc, List.cons.injEq, eq_self_iff_true, true_and]
      · simp [hc]

/-- A node that is not used has no names. -/
theorem not_contains_of_not_used (h : ¬ n.Used) (name : List α) : ¬ Contains n name := by
  rw [Node.Used, not_or, not_not] at h
  cases name with
  | nil => exact h.1
  | cons ch name =>
    rw [Contains, h.2]
    rintro ⟨child, hget, -⟩
    cases hget

theorem removeFrom_spec (h : Tidy n) (str : List α) :
    match removeFrom n str with
    | some n' => Tidy n' ∧ ∀ name, Contains n' name ↔ Contains n name ∧ name ≠ str
    | none => ¬ Contains n str := by
  induction str generalizing n with
  | nil =>
    refine ⟨h.mk_breakpoint false, fun name => ?_⟩
    cases name with
    | nil => simp [Contains]
    | cons c name => simp [Contains]
  | cons ch str ih =>
    rw [removeFrom]
    cases hget : Assoc.get n.children ch with
    | none =>
      rintro ⟨child, hget', -⟩
      rw [hget] at hget'
      cases hget'
    | some child =>
      have hspec := ih (h.child hget).1
      simp only
      cases hremove : removeFrom child str with
      | none =>
        rw [hremove] at hspec
        rintro ⟨child', hget', hcontains⟩
        rw [hget] at hget'
        exact hspec (Option.some.inj hget' ▸ hcontains)
      | some child' =>
        rw [hremove] at hspec
        obtain ⟨htidy, hcontains⟩ := hspec
        have hold : ∀ name, Contains n (ch :: name) ↔ Contains child name := by
          intro name
          rw [Contains, hget]
          simp
        simp only [Option.map_some]
        split_ifs with hused
        · refine ⟨h.put _ htidy hused, fun name => ?_⟩
          cases name with
          | nil => simp [Contains]
          | cons c name =>
            rw [contains_put]
            split_ifs with hc
            · rw [hcontains, hc, hold]
              simp
            · simp [hc]
        · -- the child is not needed any more
          refine ⟨h.erase _ ch, fun name => ?_⟩
          cases name with
          | nil => simp [Contains]
          | cons c name =>
            rw [Contains, Node.children_mk, Assoc.get_erase]
            by_cases hc : c = ch
            · subst hc
              have hgone := not_contains_of_not_used hused name
              rw [hcontains] at hgone
              rw [hold]
              simp only [if_true, reduceCtorEq, false_and, exists_false, false_iff, ne_eq,
                List.cons.injEq, true_and]
              exact hgone
            · rw [if_neg hc]
              simp only [Contains, ne_eq, List.cons.injEq, hc, false_and, not_false_eq_true, and_true]

/-- **Removing** a name takes it out, and keeps the tree tidy. -/
theorem remove_spec (h : Tidy n) (str : List α) :
    Tidy (remove n str) ∧ ∀ name, Contains (remove n str) name ↔ Contains n name ∧ name ≠ str := by
  have hspec := removeFrom_spec h str
  rw [remove]
  cases hremove : removeFrom n str with
  | none =>
    rw [hremove] at hspec
    refine ⟨h, fun name => ⟨fun hname => ⟨hname, ?_⟩, fun hname => hname.1⟩⟩
    rintro rfl
    exact hspec hname
  | some n' =>
    rw [hremove] at hspec
    exact hspec

/-! ## Queries -/

/-- A tidy node that is used has a name. -/
theorem Tidy.exists_contains (h : Tidy n) (hused : n.Used) : ∃ name, Contains n name := by
  induction h with
  | @mk breakpoint children distinct tidy used ih =>
    rcases hused with hbreak | hne
    · exact ⟨[], hbreak⟩
    · obtain ⟨⟨ch, child⟩, hmem⟩ := List.exists_mem_of_ne_nil children hne
      obtain ⟨name, hname⟩ := ih ch child hmem (used ch child hmem)
      exact ⟨ch :: name, child, (Assoc.get_eq_some_iff distinct).2 hmem, hname⟩

/-- What a node below a query has are the names that begin with the query. -/
theorem contains_follow {query : List α} {cur : Node α} (hcur : follow n query = some cur)
    (name : List α) : Contains cur name ↔ Contains n (query ++ name) := by
  induction query generalizing n with
  | nil => rw [← Option.some.inj hcur, List.nil_append]
  | cons ch query ih =>
    obtain ⟨child, hget, hfollow⟩ := Option.bind_eq_some_iff.1 hcur
    rw [ih hfollow, List.cons_append, Contains, hget]
    simp

theorem follow_none {query : List α} (h : follow n query = none) (name : List α) :
    ¬ Contains n (query ++ name) := by
  induction query generalizing n with
  | nil => cases h
  | cons ch query ih =>
    rintro ⟨child, hget, hcontains⟩
    rw [follow, hget, Option.bind_some] at h
    exact ih h hcontains

theorem tidy_follow (h : Tidy n) {query : List α} {cur : Node α} (hcur : follow n query = some cur) :
    Tidy cur ∧ (query ≠ [] → cur.Used) := by
  induction query generalizing n with
  | nil => exact ⟨Option.some.inj hcur ▸ h, fun hne => absurd rfl hne⟩
  | cons ch query ih =>
    obtain ⟨child, hget, hfollow⟩ := Option.bind_eq_some_iff.1 hcur
    obtain ⟨htidy, hused⟩ := h.child hget
    refine ⟨(ih htidy hfollow).1, fun _ => ?_⟩
    cases query with
    | nil => exact Option.some.inj hfollow ▸ hused
    | cons c query => exact (ih htidy hfollow).2 (List.cons_ne_nil c query)

/-- **The end of a query.** From a node that is used, the search ends at its only name, or finds
that it has two. -/
theorem descend_spec (h : Tidy n) (hused : n.Used) (result : List α) :
    (∃ name, descend n result = (RETURNVALUE_NOERROR, result ++ name) ∧ ∀ str, Contains n str ↔ str = name) ∨
    ((descend n result).1 = RETURNVALUE_NAMEISTOOAMBIGUOUS ∧ ∃ a b, a ≠ b ∧ Contains n a ∧ Contains n b) := by
  induction h generalizing result with
  | @mk breakpoint children distinct tidy used ih =>
    match children with
    | [] =>
      have hbreak : breakpoint = true := hused.resolve_right fun hne => hne rfl
      refine Or.inl ⟨[], by rw [descend, List.append_nil], fun str => ?_⟩
      cases str with
      | nil => simp [Contains, hbreak]
      | cons c str => simp [Contains, Assoc.get]
    | [(ch, child)] =>
      have hchild : (ch, child) ∈ [(ch, child)] := List.mem_singleton_self _
      have hget : ∀ c, Assoc.get [(ch, child)] c = if ch = c then some child else none := by
        intro c
        simp [Assoc.get]
      by_cases hbreak : breakpoint = true
      · -- the node ends a name itself
        obtain ⟨name, hname⟩ := (tidy ch child hchild).exists_contains (used ch child hchild)
        refine Or.inr ⟨by rw [descend, if_pos hbreak], [], ch :: name, (List.cons_ne_nil _ _).symm, hbreak,
          child, ?_, hname⟩
        rw [Node.children_mk, hget, if_pos rfl]
      · rw [descend, if_neg hbreak]
        have hcons : ∀ str, Contains (.mk breakpoint [(ch, child)]) str ↔
            ∃ rest, str = ch :: rest ∧ Contains child rest := by
          intro str
          cases str with
          | nil => simp [Contains, hbreak]
          | cons c str =>
            rw [Contains, Node.children_mk, hget]
            by_cases hc : ch = c
            · simp [hc]
            · simp [hc, Ne.symm hc]
        rcases ih ch child hchild (used ch child hchild) (result ++ [ch]) with
          ⟨name, heq, hname⟩ | ⟨hambiguous, a, b, hne, ha, hb⟩
        · refine Or.inl ⟨ch :: name, by rw [heq, List.append_assoc]; rfl, fun str => ?_⟩
          rw [hcons]
          simp [hname]
        · refine Or.inr ⟨hambiguous, ch :: a, ch :: b, fun heq => hne (List.cons.inj heq).2, ?_, ?_⟩
          · exact (hcons _).2 ⟨a, rfl, ha⟩
          · exact (hcons _).2 ⟨b, rfl, hb⟩
    | (ch, child) :: (ch', child') :: rest =>
      -- two children have a name each
      have hmem : (ch, child) ∈ (ch, child) :: (ch', child') :: rest := List.mem_cons_self
      have hmem' : (ch', child') ∈ (ch, child) :: (ch', child') :: rest :=
        List.mem_cons_of_mem _ List.mem_cons_self
      obtain ⟨a, ha⟩ := (tidy ch child hmem).exists_contains (used ch child hmem)
      obtain ⟨b, hb⟩ := (tidy ch' child' hmem').exists_contains (used ch' child' hmem')
      have hne : ch ≠ ch' := by
        rintro rfl
        rw [Assoc.Distinct, List.map_cons, List.map_cons, List.nodup_cons] at distinct
        exact distinct.1 List.mem_cons_self
      exact Or.inr ⟨rfl, ch :: a, ch' :: b, fun heq => hne (List.cons.inj heq).1,
        ⟨child, (Assoc.get_eq_some_iff distinct).2 hmem, ha⟩,
        ⟨child', (Assoc.get_eq_some_iff distinct).2 hmem', hb⟩⟩

/-- The answer of a node that is used below the query. -/
theorem answers_of_used (h : Tidy n) {query : List α} {cur : Node α}
    (hcur : follow n query = some cur) (hused : cur.Used) :
    Answers {name | Contains n name} query (findOne n query) := by
  have hbelow : ∀ name, Contains n name ∧ query <+: name ↔
      ∃ rest, name = query ++ rest ∧ Contains cur rest := by
    intro name
    constructor
    · rintro ⟨hname, rest, rfl⟩
      exact ⟨rest, rfl, (contains_follow hcur rest).2 hname⟩
    · rintro ⟨rest, rfl, hrest⟩
      exact ⟨(contains_follow hcur rest).1 hrest, List.prefix_append query rest⟩
  have hfind : findOne n query = descend cur query := by rw [findOne, hcur]
  rw [hfind]
  rcases descend_spec (tidy_follow h hcur).1 hused query with
    ⟨name, heq, hname⟩ | ⟨hambiguous, a, b, hne, ha, hb⟩
  · have honly : ∀ str, Contains n str ∧ query <+: str ↔ str = query ++ name := by
      intro str
      rw [hbelow]
      simp [hname]
    obtain ⟨hself, hpre⟩ := (honly _).2 rfl
    rw [heq]
    refine ⟨fun result => ⟨?_, ?_⟩, ⟨fun hreturn => (by cases hreturn), ?_⟩,
      ⟨fun hreturn => (by cases hreturn), fun hnone => absurd hpre (hnone _ hself)⟩⟩
    · rintro hreturn
      rw [← (Prod.mk.inj hreturn).2]
      exact ⟨hself, hpre, fun str hstr hquery => (honly str).1 ⟨hstr, hquery⟩⟩
    · rintro ⟨hresult, hquery, -⟩
      rw [(honly result).1 ⟨hresult, hquery⟩]
    · rintro ⟨a, ha, b, hb, hne, hqa, hqb⟩
      exact absurd (((honly a).1 ⟨ha, hqa⟩).trans ((honly b).1 ⟨hb, hqb⟩).symm) hne
  · obtain ⟨hca, hqa⟩ := (hbelow (query ++ a)).2 ⟨a, rfl, ha⟩
    obtain ⟨hcb, hqb⟩ := (hbelow (query ++ b)).2 ⟨b, rfl, hb⟩
    have hne' : query ++ a ≠ query ++ b := fun heq => hne (List.append_cancel_left heq)
    refine ⟨fun result => ⟨fun heq => ?_, ?_⟩, ⟨fun _ => ⟨_, hca, _, hcb, hne', hqa, hqb⟩,
      fun _ => hambiguous⟩, ⟨fun hreturn => ?_, fun hnone => absurd hqa (hnone _ hca)⟩⟩
    · rw [heq] at hambiguous
      cases hambiguous
    · rintro ⟨-, -, honly⟩
      exact absurd ((honly _ hca hqa).trans (honly _ hcb hqb).symm) hne'
    · rw [hambiguous] at hreturn
      cases hreturn

/-- The answer where no name begins with the query. -/
theorem answers_of_follow_none {query : List α} (h : follow n query = none) :
    Answers {name | Contains n name} query (findOne n query) := by
  have hnot : ∀ name, Contains n name → ¬ query <+: name := by
    rintro name hname ⟨rest, rfl⟩
    exact follow_none h rest hname
  have hfind : findOne n query = (RETURNVALUE_PLAYERWITHTHISNAMEISNOTONLINE, []) := by
    rw [findOne, h]
  rw [hfind]
  refine ⟨fun result => ⟨fun heq => (by cases heq), ?_⟩, ⟨fun heq => (by cases heq), ?_⟩,
    ⟨fun _ => hnot, fun _ => rfl⟩⟩
  · rintro ⟨hresult, hquery, -⟩
    exact absurd hquery (hnot result hresult)
  · rintro ⟨a, ha, -, -, -, hqa, -⟩
    exact absurd hqa (hnot a ha)

/-- **The answers of a tidy tree** are those of the set of its names, except that of an empty tree
to the empty query. -/
theorem answers_iff (h : Tidy n) (query : List α) :
    Answers {name | Contains n name} query (findOne n query) ↔
      query ≠ [] ∨ ∃ name, Contains n name := by
  cases hcur : follow n query with
  | none =>
    refine iff_of_true (answers_of_follow_none hcur) (Or.inl ?_)
    rintro rfl
    cases hcur
  | some cur =>
    by_cases hused : cur.Used
    · obtain ⟨name, hname⟩ := (tidy_follow h hcur).1.exists_contains hused
      exact iff_of_true (answers_of_used h hcur hused) (Or.inr ⟨_, (contains_follow hcur name).1 hname⟩)
    · -- only the root has no names below it
      have hquery : query = [] := by
        by_contra hne
        exact hused ((tidy_follow h hcur).2 hne)
      subst hquery
      obtain rfl := Option.some.inj hcur
      have hnone := not_contains_of_not_used hused
      refine iff_of_false (fun hanswers => ?_) ?_
      · rw [Node.Used, not_or, not_not] at hused
        obtain ⟨breakpoint, children⟩ := n
        obtain rfl : children = [] := hused.2
        exact hnone [] ((hanswers.one []).1 rfl).1
      · rintro (hne | ⟨name, hname⟩)
        · exact hne rfl
        · exact hnone name hname

/-! ## Runs -/

/-- A call of the tree. -/
inductive Op (α : Type*) where
  | insert (str : List α)
  | remove (str : List α)

/-- The name of a call. -/
def Op.name : Op α → List α
  | .insert str => str
  | .remove str => str

/-- The tree after a call. -/
def step (n : Node α) : Op α → Node α
  | .insert str => WildcardTree.insert n str
  | .remove str => WildcardTree.remove n str

/-- The names after a call. -/
def stored (names : Set (List α)) : Op α → Set (List α)
  | .insert str => names ∪ {str}
  | .remove str => names \ {str}

/-- **A run of calls** keeps the tree tidy, and it has the names that are stored. -/
theorem run_spec {names : Set (List α)} {ops : List (Op α)} (hops : ∀ op ∈ ops, op.name ≠ [])
    (h : Tidy n) (hnames : {name | Contains n name} = names) :
    Tidy (ops.foldl step n) ∧ {name | Contains (ops.foldl step n) name} = ops.foldl stored names := by
  induction ops generalizing n names with
  | nil => exact ⟨h, hnames⟩
  | cons op ops ih =>
    have hop := hops op List.mem_cons_self
    have hstep : Tidy (step n op) ∧ {name | Contains (step n op) name} = stored names op := by
      subst hnames
      cases op with
      | insert str =>
        obtain ⟨htidy, -, hcontains⟩ := insert_spec h hop
        exact ⟨htidy, Set.ext fun name => hcontains name⟩
      | remove str =>
        obtain ⟨htidy, hcontains⟩ := remove_spec h str
        exact ⟨htidy, Set.ext fun name => hcontains name⟩
    exact ih (fun op' h' => hops op' (List.mem_cons_of_mem op h')) hstep.1 hstep.2

omit [DecidableEq α] in
/-- The answer to a query is about the names that begin with it. -/
theorem Answers.congr {names names' : Set (List α)} {query : List α} {answer : ReturnValue × List α}
    (h : Answers names query answer) (hnames : ∀ name, query <+: name → (name ∈ names' ↔ name ∈ names)) :
    Answers names' query answer := by
  refine ⟨fun result => (h.one result).trans ?_, h.ambiguous.trans ?_, h.none.trans ?_⟩
  · constructor
    · rintro ⟨hresult, hquery, honly⟩
      exact ⟨(hnames _ hquery).2 hresult, hquery,
        fun name hname hpre => honly name ((hnames name hpre).1 hname) hpre⟩
    · rintro ⟨hresult, hquery, honly⟩
      exact ⟨(hnames _ hquery).1 hresult, hquery,
        fun name hname hpre => honly name ((hnames name hpre).2 hname) hpre⟩
  · constructor
    · rintro ⟨a, ha, b, hb, hne, hqa, hqb⟩
      exact ⟨a, (hnames a hqa).2 ha, b, (hnames b hqb).2 hb, hne, hqa, hqb⟩
    · rintro ⟨a, ha, b, hb, hne, hqa, hqb⟩
      exact ⟨a, (hnames a hqa).1 ha, b, (hnames b hqb).1 hb, hne, hqa, hqb⟩
  · exact ⟨fun hnone name hname hpre => hnone name ((hnames name hpre).1 hname) hpre,
      fun hnone name hname hpre => hnone name ((hnames name hpre).2 hname) hpre⟩

/-- The tree after a run of calls answers a query like the set of the stored names, and still does
so after a name is removed that does not begin with the query. -/
structure AnswersLikeSet (ops : List (Op α)) (query : List α) : Prop where
  answers : Answers (ops.foldl stored ∅) query (findOne (ops.foldl step (.mk false [])) query)
  unaffected : ∀ name, name ≠ [] → ¬ query <+: name →
    Answers (ops.foldl stored ∅) query (findOne (remove (ops.foldl step (.mk false [])) name) query)

/-- **The wildcard tree** after any calls with names that are not empty answers a query like the set
of the stored names, unless the query is empty and no name is stored. -/
theorem findOne_answers_iff (ops : List (Op α)) (hops : ∀ op ∈ ops, op.name ≠ []) (query : List α) :
    AnswersLikeSet ops query ↔ ¬ (query = [] ∧ ops.foldl stored ∅ = ∅) := by
  have hempty : {name : List α | Contains (.mk false []) name} = ∅ := by
    refine Set.eq_empty_of_forall_notMem fun name => ?_
    exact not_contains_of_not_used (by simp [Node.Used]) name
  obtain ⟨htidy, hnames⟩ := run_spec hops (tidy_new false) hempty
  have hanswers := answers_iff htidy query
  have hstored : (∃ name, Contains (ops.foldl step (.mk false [])) name) ↔ ops.foldl stored ∅ ≠ ∅ := by
    rw [← hnames]
    exact Set.nonempty_iff_ne_empty
  rw [hstored, ← not_and_or, hnames] at hanswers
  refine ⟨fun h => hanswers.1 h.answers, fun h => ⟨hanswers.2 h, fun name hname hquery => ?_⟩⟩
  -- the answer after the removal is that of the names without the removed one
  obtain ⟨htidy', hnames'⟩ := remove_spec htidy name
  have hne : query ≠ [] := by
    rintro rfl
    exact hquery List.nil_prefix
  refine ((answers_iff htidy' query).2 (Or.inl hne)).congr fun str hstr => ?_
  rw [← hnames]
  change Contains _ str ↔ Contains _ str
  rw [hnames' str]
  constructor
  · intro hcontains
    refine ⟨hcontains, ?_⟩
    rintro rfl
    exact hquery hstr
  · exact fun hcontains => hcontains.1

end Tree

/-- A tree with two names, one of which begins with the other. -/
theorem findOne_answers_iff_two : AnswersLikeSet [Op.insert [1], .insert [1, 2]] [1] :=
  (findOne_answers_iff [.insert [1], .insert [1, 2]] (by simp [Op.name]) [1]).2 (by simp)

/-- An empty tree has a name for the empty query. -/
theorem not_findOne_answers :
    ¬ ∀ (ops : List (Op ℕ)), (∀ op ∈ ops, op.name ≠ []) → ∀ query, AnswersLikeSet ops query := by
  intro h
  have hanswers := (h [] (fun _ hop => absurd hop List.not_mem_nil) []).answers
  exact ((hanswers.one []).1 rfl).1

end TiabloServer.WildcardTree
