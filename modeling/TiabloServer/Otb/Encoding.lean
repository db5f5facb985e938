import TiabloServer.Otb.Loader

/-!
# Parsing what has been encoded

The encoding of a tree, and that `OTB::Loader` reads the tree back from it. A file that the loader
accepts closes each node it opens, and no read of the loader leaves the file.

## Main definitions

* `OTB.Represents` — a node of the loader has the type, the properties and the children of a tree.
* `OTB.tokens` — the nodes that bytes open and close.

## Main results

* `OTB.load_encode` — the loader reads an encoded tree.
* `OTB.load_total` — it reads nothing outside the file and accepts balanced files only.
* `OTB.load_encode_and_total` — both.
-/

namespace TiabloServer.OTB

/-! ## Trees -/

/-- A tree of nodes: a type, properties and children. -/
inductive Tree where
  | node (type : UInt8) (props : List UInt8) (children : List Tree)

/-- The bytes that have a meaning of their own. -/
def isControl (b : UInt8) : Bool := b == ESCAPE || b == START || b == END

/-- Properties with an escape before each control byte. -/
def escape (props : List UInt8) : List UInt8 :=
  props.flatMap fun b => if isControl b then [ESCAPE, b] else [b]

mutual

/-- The encoding of a node. -/
def Tree.encode : Tree → List UInt8
  | .node type props children => START :: type :: (escape props ++ (encodeAll children ++ [END]))

/-- The encodings of the children of a node. -/
def encodeAll : List Tree → List UInt8
  | [] => []
  | t :: ts => t.encode ++ encodeAll ts

end

mutual

/-- No type is a control byte and no node is without properties. -/
def Tree.Valid : Tree → Prop
  | .node type props children => isControl type = false ∧ props ≠ [] ∧ AllValid children

def AllValid : List Tree → Prop
  | [] => True
  | t :: ts => t.Valid ∧ AllValid ts

end

mutual

/-- A parsed node has the type of a tree, its properties are those of the tree, and its children
represent those of the tree. -/
def Represents (fileContents : List UInt8) : Node → Tree → Prop
  | .node type propsBegin propsEnd nodes, .node type' props children =>
    type = type' ∧ getProps fileContents (.node type propsBegin propsEnd nodes) = some props ∧
      RepresentsAll fileContents nodes children

def RepresentsAll (fileContents : List UInt8) : List Node → List Tree → Prop
  | [], [] => True
  | n :: ns, t :: ts => Represents fileContents n t ∧ RepresentsAll fileContents ns ts
  | [], _ :: _ => False
  | _ :: _, [] => False

end

/-! ## Escapes -/

theorem escape_cons (b : UInt8) (bs : List UInt8) :
    escape (b :: bs) = (if isControl b then [ESCAPE, b] else [b]) ++ escape bs :=
  List.flatMap_cons ..

theorem escape_eq_nil {bs : List UInt8} (h : escape bs = []) : bs = [] := by
  cases bs with
  | nil => rfl
  | cons b bs =>
    rw [escape_cons] at h
    split_ifs at h <;> exact nomatch h

/-- **Escapes are taken out again.** -/
theorem copyUnescaped_escape (bs : List UInt8) : copyUnescaped false (escape bs) = bs := by
  induction bs with
  | nil => rfl
  | cons b bs ih =>
    rw [escape_cons]
    split_ifs with hb
    · simp [copyUnescaped, ih]
    · have hne : (b == ESCAPE) = false := by
        simp only [isControl, Bool.or_eq_true, not_or, Bool.not_eq_true] at hb
        exact hb.1.1
      simp [copyUnescaped, hne, ih]

/-! ## Steps of the loop -/

section Loop

variable {fileContents rest : List UInt8} {it : ℕ} {b : UInt8}

theorem lt_of_drop (h : fileContents.drop it = b :: rest) : it < fileContents.length := by
  by_contra hle
  rw [List.drop_eq_nil_of_le (not_lt.1 hle)] at h
  exact nomatch h

theorem byteAt_of_drop (h : fileContents.drop it = b :: rest) : byteAt fileContents it = .ok b := by
  have hget : fileContents[it]? = some b := by
    rw [← List.head?_drop, h, List.head?_cons]
  rw [byteAt, hget]

theorem drop_succ (h : fileContents.drop it = b :: rest) : fileContents.drop (it + 1) = rest := by
  rw [← List.tail_drop, h, List.tail_cons]

/-- The loop at the start of a node. -/
theorem parseLoop_start {type : UInt8} {current : OpenNode} {parents : List OpenNode}
    (h : fileContents.drop it = START :: type :: rest) : parseLoop fileContents it (.push current parents) =
      parseLoop fileContents (it + 2) (.push ⟨type, it + 2, none, []⟩ (current.endProps it :: parents)) := by
  have hlt := lt_of_drop h
  have hlt' := lt_of_drop (drop_succ h)
  rw [parseLoop, if_neg hlt.ne]
  split
  · rename_i e he
    cases (byteAt_of_drop h).symm.trans he
  · rename_i byte hbyte
    obtain rfl := Except.ok.inj ((byteAt_of_drop h).symm.trans hbyte)
    rw [if_pos rfl, byteAt_of_drop (drop_succ h)]
    dsimp only
    rw [if_neg hlt'.ne]

/-- The loop at the end of a node. -/
theorem parseLoop_end {current : OpenNode} {parents : List OpenNode} (h : fileContents.drop it = END :: rest) :
    parseLoop fileContents it (.push current parents) =
      parseLoop fileContents (it + 1) (NodeStack.pop (current.endProps it) parents) := by
  have hlt := lt_of_drop h
  rw [parseLoop, if_neg hlt.ne]
  split
  · rename_i e he
    cases (byteAt_of_drop h).symm.trans he
  · rename_i byte hbyte
    obtain rfl := Except.ok.inj ((byteAt_of_drop h).symm.trans hbyte)
    rw [if_neg (by decide), if_pos rfl]

/-- The loop at an escape. -/
theorem parseLoop_escape {s : NodeStack} (h : fileContents.drop it = ESCAPE :: b :: rest) :
    parseLoop fileContents it s = parseLoop fileContents (it + 2) s := by
  have hlt := lt_of_drop h
  have hlt' := lt_of_drop (drop_succ h)
  rw [parseLoop.eq_def fileContents it, if_neg hlt.ne]
  split
  · rename_i e he
    cases (byteAt_of_drop h).symm.trans he
  · rename_i byte hbyte
    obtain rfl := Except.ok.inj ((byteAt_of_drop h).symm.trans hbyte)
    rw [if_neg (by decide), if_neg (by decide), if_pos rfl, if_neg hlt'.ne]

/-- The loop at any other byte. -/
theorem parseLoop_other {s : NodeStack} (h : fileContents.drop it = b :: rest) (hb : isControl b = false) :
    parseLoop fileContents it s = parseLoop fileContents (it + 1) s := by
  have hlt := lt_of_drop h
  simp only [isControl, Bool.or_eq_false_iff, beq_eq_false_iff_ne] at hb
  rw [parseLoop.eq_def fileContents it, if_neg hlt.ne]
  split
  · rename_i e he
    cases (byteAt_of_drop h).symm.trans he
  · rename_i byte hbyte
    obtain rfl := Except.ok.inj ((byteAt_of_drop h).symm.trans hbyte)
    rw [if_neg hb.1.2, if_neg hb.2, if_neg hb.1.1]

/-- The loop passes over properties. -/
theorem parseLoop_props {s : NodeStack} {props : List UInt8} (h : fileContents.drop it = escape props ++ rest) :
    parseLoop fileContents it s = parseLoop fileContents (it + (escape props).length) s := by
  induction props generalizing it with
  | nil => rfl
  | cons b props ih =>
    rw [escape_cons] at h ⊢
    split_ifs at h ⊢ with hb
    · rw [parseLoop_escape h, ih (drop_succ (drop_succ h))]
      congr 1
      simp only [List.length_append, List.length_cons, List.length_nil]
      omega
    · rw [parseLoop_other h (Bool.eq_false_iff.2 hb), ih (drop_succ h)]
      congr 1
      simp only [List.length_append, List.length_cons, List.length_nil]
      omega

/-- The properties of a node are found where they are. -/
theorem getProps_eq {type : UInt8} {props : List UInt8} {nodes : List Node}
    (h : fileContents.drop it = escape props ++ rest) (hprops : props ≠ []) :
    getProps fileContents (.node type it (some (it + (escape props).length)) nodes) = some props := by
  have hne : (escape props).length ≠ 0 := fun hzero =>
    hprops (escape_eq_nil (List.length_eq_zero_iff.1 hzero))
  rw [getProps, Nat.add_sub_cancel_left, if_neg hne, h, List.take_left, copyUnescaped_escape]

end Loop

/-! ## Reading an encoded tree -/

section Read

variable {fileContents : List UInt8}

theorem drop_append {it : ℕ} {a b : List UInt8} (h : fileContents.drop it = a ++ b) :
    fileContents.drop (it + a.length) = b := by
  rw [← List.drop_drop, h, List.drop_left]

/-- A node once `nodes` have been closed in it, the first of which began at `it`. -/
def OpenNode.withChildren (n : OpenNode) (it : ℕ) (nodes : List Node) : OpenNode :=
  match nodes with
  | [] => n
  | _ :: _ => { n.endProps it with children := n.children ++ nodes }

theorem OpenNode.withChildren_cons (n : OpenNode) (it it' : ℕ) (node : Node) (nodes : List Node) :
    (n.withChildren it [node]).withChildren it' nodes = n.withChildren it (node :: nodes) := by
  cases nodes with
  | nil => rfl
  | cons node' nodes => simp [withChildren, endProps]

theorem representsAll_nil {ts : List Tree} (h : RepresentsAll fileContents [] ts) : ts = [] := by
  cases ts with
  | nil => rfl
  | cons t ts => exact (by rwa [RepresentsAll] at h : False).elim

/-- The properties of a closed node end where its children, or its own end, begin. -/
theorem close_withChildren {type : UInt8} {propsBegin it it' : ℕ} {nodes : List Node} (h : nodes = [] → it' = it) :
    (((OpenNode.mk type propsBegin none []).withChildren it nodes).endProps it').close =
      .node type propsBegin (some it) nodes := by
  cases nodes with
  | nil => simp [OpenNode.withChildren, OpenNode.endProps, OpenNode.close, h rfl]
  | cons node nodes => simp [OpenNode.withChildren, OpenNode.endProps, OpenNode.close]

theorem OpenNode.endProps_children (n : OpenNode) (it : ℕ) : (n.endProps it).children = n.children := by
  rw [endProps]
  split_ifs <;> rfl

/-- The loop reads the children of a node and closes them in it. -/
def ReadsAll (fileContents : List UInt8) (ts : List Tree) : Prop :=
  ∀ (it : ℕ) (rest : List UInt8), fileContents.drop it = encodeAll ts ++ rest →
    ∀ (current : OpenNode) (parents : List OpenNode),
      ∃ nodes, RepresentsAll fileContents nodes ts ∧
        parseLoop fileContents it (.push current parents) =
          parseLoop fileContents (it + (encodeAll ts).length)
            (.push (current.withChildren it nodes) parents)

/-- The loop reads the properties and the children of a node, and pops it. -/
theorem parseLoop_body (type : UInt8) {props : List UInt8} (hprops : props ≠ [])
    {children : List Tree} (hchildren : ReadsAll fileContents children) {it : ℕ} {rest : List UInt8}
    (h : fileContents.drop it = escape props ++ (encodeAll children ++ END :: rest)) (parents : List OpenNode) :
    ∃ m : OpenNode, Represents fileContents m.close (.node type props children) ∧
      parseLoop fileContents it (.push ⟨type, it, none, []⟩ parents) =
        parseLoop fileContents (it + (escape props).length + (encodeAll children).length + 1)
          (NodeStack.pop m parents) := by
  obtain ⟨nodes, hnodes, hparse⟩ := hchildren _ _ (drop_append h) ⟨type, it, none, []⟩ parents
  refine ⟨((OpenNode.mk type it none []).withChildren (it + (escape props).length) nodes).endProps
    (it + (escape props).length + (encodeAll children).length), ?_, ?_⟩
  · rw [close_withChildren, Represents]
    · exact ⟨rfl, getProps_eq h hprops, hnodes⟩
    · rintro rfl
      rw [representsAll_nil hnodes]
      rfl
  · rw [parseLoop_props h, hparse, parseLoop_end (drop_append (drop_append h))]

mutual

/-- **The loop reads an encoded node** and closes it in its parent. -/
theorem parseLoop_encode (t : Tree) (ht : t.Valid) {it : ℕ} {rest : List UInt8}
    (h : fileContents.drop it = t.encode ++ rest) (current : OpenNode) (parents : List OpenNode) :
    ∃ n, Represents fileContents n t ∧ parseLoop fileContents it (.push current parents) =
        parseLoop fileContents (it + t.encode.length) (.push (current.withChildren it [n]) parents) := by
  match t with
  | .node type props children =>
    rw [Tree.encode] at h ⊢
    rw [Tree.Valid] at ht
    have hnode : fileContents.drop it =
        START :: type :: (escape props ++ (encodeAll children ++ END :: rest)) := by
      rw [h]
      simp only [List.cons_append, List.append_assoc, List.nil_append]
    obtain ⟨m, hm, hparse⟩ := parseLoop_body type ht.2.1 (parseLoop_encodeAll children ht.2.2)
      (drop_succ (drop_succ hnode)) (current.endProps it :: parents)
    have hlength : it + (START :: type :: (escape props ++ (encodeAll children ++ [END]))).length =
        it + 2 + (escape props).length + (encodeAll children).length + 1 := by
      simp only [List.length_cons, List.length_append, List.length_nil]
      omega
    refine ⟨m.close, hm, ?_⟩
    rw [parseLoop_start hnode, hparse, hlength, NodeStack.pop, OpenNode.endProps_children,
      OpenNode.withChildren]

/-- The loop reads encoded children. -/
theorem parseLoop_encodeAll (ts : List Tree) (hts : AllValid ts) : ReadsAll fileContents ts := by
  match ts with
  | [] =>
    intro it rest h current parents
    refine ⟨[], by rw [RepresentsAll]; trivial, ?_⟩
    rw [encodeAll]
    rfl
  | t :: ts =>
    intro it rest h current parents
    rw [AllValid] at hts
    rw [encodeAll, List.append_assoc] at h
    obtain ⟨n, hn, hparse⟩ := parseLoop_encode t hts.1 h current parents
    obtain ⟨nodes, hnodes, hparse'⟩ := parseLoop_encodeAll ts hts.2 _ _ (drop_append h)
      (current.withChildren it [n]) parents
    refine ⟨n :: nodes, by rw [RepresentsAll]; exact ⟨hn, hnodes⟩, ?_⟩
    rw [hparse, hparse', OpenNode.withChildren_cons, encodeAll, List.length_append, Nat.add_assoc]

end

/-- **The loader reads an encoded tree**: on an accepted identifier followed by the encoding of a
tree it succeeds, with a tree of the same shape and types in which `getProps` gives the properties
of each node. -/
theorem load_encode (identifier acceptedIdentifier : List UInt8) (hlength : identifier.length = 4)
    (hidentifier : identifier = acceptedIdentifier ∨ identifier = wildcard) (t : Tree) (ht : t.Valid) :
    ∃ n, load (identifier ++ t.encode) acceptedIdentifier = .ok n ∧ Represents (identifier ++ t.encode) n t := by
  obtain ⟨type, props, children⟩ := t
  rw [Tree.Valid] at ht
  let fileContents := identifier ++ (Tree.node type props children).encode
  have hnode : fileContents.drop 4 =
      START :: type :: (escape props ++ (encodeAll children ++ END :: [])) := by
    rw [← hlength, List.drop_left, Tree.encode]
  have hne : (escape props).length ≠ 0 := fun hzero =>
    ht.2.1 (escape_eq_nil (List.length_eq_zero_iff.1 hzero))
  have hsize : fileContents.length = 6 + (escape props).length + (encodeAll children).length + 1 := by
    simp only [fileContents, Tree.encode, List.length_append, List.length_cons, List.length_nil,
      hlength]
    omega
  have hheader : checkHeader fileContents acceptedIdentifier = .ok () := by
    rw [checkHeader, if_neg (by rw [minimalSize]; omega)]
    have htake : fileContents.take 4 = identifier := by rw [← hlength, List.take_left]
    dsimp only
    rw [htake, if_neg]
    rintro ⟨h₁, h₂⟩
    exact hidentifier.elim h₁ h₂
  obtain ⟨m, hm, hparse⟩ := parseLoop_body type ht.2.1 (parseLoop_encodeAll children ht.2.2)
    (drop_succ (drop_succ hnode)) []
  refine ⟨m.close, ?_, hm⟩
  have hend : parseLoop fileContents fileContents.length (.empty m.close) = .ok m.close := by
    rw [parseLoop, if_pos rfl]
  calc load fileContents acceptedIdentifier
      = parseTree fileContents := by
        rw [load, hheader]
        rfl
    _ = parseLoop fileContents 6 (.push ⟨type, 6, none, []⟩ []) := by
        rw [parseTree, byteAt_of_drop hnode]
        simp only [bind, Except.bind, ne_eq, not_true_eq_false, if_false,
          byteAt_of_drop (drop_succ hnode)]
    _ = .ok m.close := by
        rw [hparse, ← hsize, NodeStack.pop, hend]

end Read

/-! ## What is accepted -/

/-- What bytes do in the tree: START, with the type byte after it, opens a node, END closes one, and
every other byte, with an escape in front of it or without, is one of the properties. -/
inductive Token where
  | opens (type : UInt8)
  | closes
  | prop (b : UInt8)

/-- The tokens of bytes; none if they end after a START or an escape. -/
def tokens : List UInt8 → Option (List Token)
  | [] => some []
  | b :: bs =>
    if b = START then
      match bs with
      | [] => none
      | type :: bs => (tokens bs).map (.opens type :: ·)
    else if b = END then (tokens bs).map (.closes :: ·)
    else if b = ESCAPE then
      match bs with
      | [] => none
      | b :: bs => (tokens bs).map (.prop b :: ·)
    else (tokens bs).map (.prop b :: ·)

theorem tokens_closes (bs : List UInt8) : tokens (END :: bs) = (tokens bs).map (.closes :: ·) := by
  rw [tokens.eq_def]
  rfl

theorem tokens_prop {b : UInt8} (hb : b ≠ START ∧ b ≠ END ∧ b ≠ ESCAPE) (bs : List UInt8) :
    tokens (b :: bs) = (tokens bs).map (.prop b :: ·) := by
  rw [tokens.eq_def]
  dsimp only
  rw [if_neg hb.1, if_neg hb.2.1, if_neg hb.2.2]

/-- How many nodes a token opens. -/
def Token.opened : Token → ℕ
  | .opens _ => 1
  | _ => 0

/-- How many nodes a token closes. -/
def Token.closed : Token → ℕ
  | .closes => 1
  | _ => 0

/-- Of `d` open nodes and those that tokens open, each is closed once, none before it is open. -/
def Balanced (d : ℕ) (l : List Token) : Prop :=
  d + (l.map Token.opened).sum = (l.map Token.closed).sum ∧
    ∀ m, m <+: l → (m.map Token.closed).sum ≤ d + (m.map Token.opened).sum

/-- The properties of a node, and of all below it, begin before they end, in the file. -/
inductive Node.Within (size : ℕ) : Node → Prop where
  | mk {type : UInt8} {propsBegin propsEnd : ℕ} {children : List Node}
      (hbegin : propsBegin ≤ propsEnd) (hend : propsEnd ≤ size)
      (hchildren : ∀ c ∈ children, Node.Within size c) :
      Node.Within size (.node type propsBegin (some propsEnd) children)

section Total

variable {size it : ℕ}

theorem Balanced.cons {d : ℕ} {t : Token} {l : List Token} (h : Balanced (d + t.opened - t.closed) l)
    (hd : t.closed ≤ d + t.opened) : Balanced d (t :: l) := by
  refine ⟨?_, fun m hm => ?_⟩
  · have hall := h.1
    rw [List.map_cons, List.map_cons, List.sum_cons, List.sum_cons]
    omega
  · rcases List.prefix_cons_iff.1 hm with rfl | ⟨m, rfl, hm'⟩
    · exact Nat.zero_le _
    · have hbefore := h.2 m hm'
      rw [List.map_cons, List.map_cons, List.sum_cons, List.sum_cons]
      omega

/-- The properties of an open node have been found to end in the file. -/
def OpenNode.EndsWithin (size : ℕ) (n : OpenNode) : Prop :=
  ∃ e, n.propsEnd = some e ∧ n.propsBegin ≤ e ∧ e ≤ size

/-- What is known of the current node: until it has a child its properties may end here. -/
structure OpenNode.Good (size it : ℕ) (n : OpenNode) : Prop where
  children : ∀ c ∈ n.children, c.Within size
  ends : n.children = [] ∧ n.propsBegin ≤ it ∨ n.children ≠ [] ∧ n.EndsWithin size

/-- A node that has just been opened. -/
theorem good_new {propsBegin : ℕ} (type : UInt8) (h : propsBegin ≤ it) :
    OpenNode.Good size it ⟨type, propsBegin, none, []⟩ where
  children _ hc := nomatch hc
  ends := Or.inl ⟨rfl, h⟩

/-- What is known of the stack. -/
def NodeStack.Good (size it : ℕ) : NodeStack → Prop
  | .empty root => root.Within size
  | .push current parents =>
    current.Good size it ∧ ∀ p ∈ parents, p.EndsWithin size ∧ ∀ c ∈ p.children, c.Within size

/-- The number of open nodes. -/
def NodeStack.depth : NodeStack → ℕ
  | .empty _ => 0
  | .push _ parents => parents.length + 1

theorem OpenNode.Good.endProps {n : OpenNode} (h : n.Good size it) (hit : it ≤ size) :
    (n.endProps it).EndsWithin size ∧ ∀ c ∈ (n.endProps it).children, c.Within size := by
  rw [n.endProps_children it]
  refine ⟨?_, h.children⟩
  rcases h.ends with ⟨hnil, hbegin⟩ | ⟨hne, hends⟩
  · rw [OpenNode.endProps, if_pos (by rw [hnil]; rfl)]
    exact ⟨it, rfl, hbegin, hit⟩
  · rw [OpenNode.endProps, if_neg (by rwa [List.isEmpty_iff])]
    exact hends

theorem OpenNode.within_close {n : OpenNode} (h : n.EndsWithin size)
    (hchildren : ∀ c ∈ n.children, c.Within size) : n.close.Within size := by
  obtain ⟨e, he, hbegin, hend⟩ := h
  rw [OpenNode.close, he]
  exact .mk hbegin hend hchildren

theorem NodeStack.good_pop {n : OpenNode} {parents : List OpenNode} (h : n.EndsWithin size)
    (hchildren : ∀ c ∈ n.children, c.Within size)
    (hparents : ∀ p ∈ parents, p.EndsWithin size ∧ ∀ c ∈ p.children, c.Within size) :
    (NodeStack.pop n parents).Good size it := by
  have hclose := OpenNode.within_close h hchildren
  cases parents with
  | nil => exact hclose
  | cons p parents =>
    obtain ⟨hends, hwithin⟩ := hparents p List.mem_cons_self
    refine ⟨⟨fun c hc => ?_, Or.inr ⟨by simp, hends⟩⟩,
      fun q hq => hparents q (List.mem_cons_of_mem p hq)⟩
    rcases List.mem_append.1 hc with hc | hc
    · exact hwithin c hc
    · exact List.mem_singleton.1 hc ▸ hclose

theorem NodeStack.depth_pop (n : OpenNode) (parents : List OpenNode) :
    (NodeStack.pop n parents).depth = parents.length := by
  cases parents <;> rfl

theorem NodeStack.Good.mono {s : NodeStack} {it' : ℕ} (h : s.Good size it) (hle : it ≤ it') : s.Good size it' := by
  cases s with
  | empty root => exact h
  | push current parents =>
    exact ⟨⟨h.1.children, h.1.ends.imp_left fun he => ⟨he.1, he.2.trans hle⟩⟩, h.2⟩

/-- The loop reads nothing outside the file: it throws, or ends with a tree that lies in the file,
and what it has read is balanced. -/
theorem parseLoop_total (fileContents : List UInt8) (it : ℕ) (s : NodeStack)
    (hit : it ≤ fileContents.length) (hs : s.Good fileContents.length it) :
    parseLoop fileContents it s = .error .InvalidOTBFormat ∨
      ∃ root l, parseLoop fileContents it s = .ok root ∧ root.Within fileContents.length ∧
        tokens (fileContents.drop it) = some l ∧ Balanced s.depth l := by
  have hread : ∀ it, it < fileContents.length → ∃ b, byteAt fileContents it = .ok b ∧
      fileContents.drop it = b :: fileContents.drop (it + 1) := by
    intro it hlt
    have hdrop := List.drop_eq_getElem_cons hlt
    exact ⟨_, byteAt_of_drop hdrop, hdrop⟩
  fun_induction parseLoop fileContents it s with
  | case1 root =>
    refine Or.inr ⟨root, [], rfl, hs, ?_, rfl, fun m hm => ?_⟩
    · rw [List.drop_length]
      rfl
    · obtain rfl := List.prefix_nil.1 hm
      exact Nat.zero_le _
  | case2 | case4 | case5 | case8 | case10 => exact Or.inl rfl
  | case3 it s hne e he =>
    obtain ⟨b, hb, -⟩ := hread it (by omega)
    exact nomatch he.symm.trans hb
  | case6 it hne current parents hne' e he =>
    obtain ⟨b, hb, -⟩ := hread (it + 1) (by omega)
    exact nomatch he.symm.trans hb
  | case7 it hne current parents hne' type htype hbyte hlt ih =>
    obtain ⟨b, hb, hdrop⟩ := hread it hlt
    obtain ⟨b', hb', hdrop'⟩ := hread (it + 1) (by omega)
    obtain rfl := Except.ok.inj (hbyte.symm.trans hb)
    obtain rfl := Except.ok.inj (htype.symm.trans hb')
    have hgood : NodeStack.Good fileContents.length (it + 2)
        (.push ⟨type, it + 2, none, []⟩ (current.endProps it :: parents)) := by
      refine ⟨good_new _ le_rfl, fun p hp => ?_⟩
      rcases List.mem_cons.1 hp with rfl | hp
      · exact hs.1.endProps hit
      · exact hs.2 p hp
    refine (ih (by omega) hgood).imp_right fun ⟨root, l, hparse, hwithin, htokens, hbalanced⟩ =>
      ⟨root, .opens type :: l, hparse, hwithin, ?_, hbalanced.cons (Nat.zero_le _)⟩
    rw [hdrop, hdrop', tokens, if_pos rfl, htokens]
    rfl
  | case9 it hne current parents hbyte hlt hnot ih =>
    obtain ⟨b, hb, hdrop⟩ := hread it hlt
    obtain rfl := Except.ok.inj (hbyte.symm.trans hb)
    have hends := hs.1.endProps hit
    refine (ih (by omega) (NodeStack.good_pop hends.1 hends.2 hs.2)).imp_right
      fun ⟨root, l, hparse, hwithin, htokens, hbalanced⟩ =>
        ⟨root, .closes :: l, hparse, hwithin, ?_, ?_⟩
    · rw [hdrop, tokens_closes, htokens]
      rfl
    · rw [NodeStack.depth_pop] at hbalanced
      exact hbalanced.cons (Nat.succ_le_succ (Nat.zero_le _))
  | case11 it s hne hne' hbyte hlt hnot hnot' ih =>
    obtain ⟨b, hb, hdrop⟩ := hread it hlt
    obtain ⟨b', hb', hdrop'⟩ := hread (it + 1) (by omega)
    obtain rfl := Except.ok.inj (hbyte.symm.trans hb)
    refine (ih (by omega) (hs.mono (by omega))).imp_right
      fun ⟨root, l, hparse, hwithin, htokens, hbalanced⟩ =>
        ⟨root, .prop b' :: l, hparse, hwithin, ?_, hbalanced.cons (Nat.zero_le _)⟩
    rw [hdrop, hdrop', tokens, if_neg hnot, if_neg hnot', if_pos rfl, htokens]
    rfl
  | case12 it s hne b hbyte hlt hstart hend hescape ih =>
    obtain ⟨b', hb', hdrop⟩ := hread it hlt
    obtain rfl := Except.ok.inj (hbyte.symm.trans hb')
    refine (ih (by omega) (hs.mono (by omega))).imp_right
      fun ⟨root, l, hparse, hwithin, htokens, hbalanced⟩ =>
        ⟨root, .prop b :: l, hparse, hwithin, ?_, hbalanced.cons (Nat.zero_le _)⟩
    rw [hdrop, tokens_prop ⟨hstart, hend, hescape⟩, htokens]
    rfl

/-- **The loader is total**: for every file it throws `InvalidOTBFormat` or returns, and reads
nothing past the end. What it accepts is balanced, and the properties of all nodes lie in the
file. -/
theorem load_total (fileContents acceptedIdentifier : List UInt8) :
    load fileContents acceptedIdentifier = .error .InvalidOTBFormat ∨
      ∃ root l, load fileContents acceptedIdentifier = .ok root ∧
        root.Within fileContents.length ∧ tokens (fileContents.drop 4) = some l ∧ Balanced 0 l := by
  rw [load]
  cases hheader : checkHeader fileContents acceptedIdentifier with
  | error e =>
    rw [checkHeader] at hheader
    dsimp only at hheader
    split_ifs at hheader <;> cases hheader <;> exact Or.inl rfl
  | ok u =>
    have hsize : minimalSize < fileContents.length := by
      by_contra hle
      rw [checkHeader, if_pos (not_lt.1 hle)] at hheader
      exact nomatch hheader
    rw [minimalSize] at hsize
    have hdrop := List.drop_eq_getElem_cons (show 4 < fileContents.length by omega)
    have hdrop' := List.drop_eq_getElem_cons (show 5 < fileContents.length by omega)
    have htree : parseTree fileContents = if fileContents[4] ≠ START then .error .InvalidOTBFormat
        else parseLoop fileContents 6 (.push ⟨fileContents[5], 6, none, []⟩ []) := by
      rw [parseTree, byteAt_of_drop hdrop, byteAt_of_drop hdrop']
      rfl
    have hload : (do let _ ← Except.ok u; parseTree fileContents) = parseTree fileContents := rfl
    rw [hload, htree]
    split_ifs with hstart
    · exact Or.inl rfl
    · have hgood : NodeStack.Good fileContents.length 6
          (.push ⟨fileContents[5], 6, none, []⟩ []) :=
        ⟨good_new _ le_rfl, fun p hp => nomatch hp⟩
      refine (parseLoop_total fileContents 6 _ (by omega) hgood).imp_right
        fun ⟨root, l, hparse, hwithin, htokens, hbalanced⟩ =>
          ⟨root, .opens fileContents[5] :: l, hparse, hwithin, ?_, hbalanced.cons (Nat.zero_le _)⟩
      rw [hdrop, hdrop', not_not.1 hstart, tokens, if_pos rfl, htokens]
      rfl

end Total

/-- **The loader inverts the encoding and is total.** It reads the encoding of a tree back, with the
properties of each node, and every file makes it throw `InvalidOTBFormat` or return, without a read
past the end, and return only if each node that is opened is closed. -/
theorem load_encode_and_total :
    (∀ identifier acceptedIdentifier : List UInt8, identifier.length = 4 →
      (identifier = acceptedIdentifier ∨ identifier = wildcard) → ∀ t : Tree, t.Valid →
        ∃ n, load (identifier ++ t.encode) acceptedIdentifier = .ok n ∧
          Represents (identifier ++ t.encode) n t) ∧
      ∀ fileContents acceptedIdentifier : List UInt8,
        load fileContents acceptedIdentifier = .error .InvalidOTBFormat ∨
          ∃ root l, load fileContents acceptedIdentifier = .ok root ∧
            root.Within fileContents.length ∧ tokens (fileContents.drop 4) = some l ∧
              Balanced 0 l :=
  ⟨load_encode, load_total⟩

/-- `load_encode_and_total` for a node with an escape and an END among its properties, and a
child. -/
theorem load_encode_and_total_nested :
    ∃ n, load ([0, 0, 0, 0] ++ (Tree.node 1 [ESCAPE, 7, END] [.node 2 [START] []]).encode)
        [79, 84, 66, 77] = .ok n ∧
      Represents ([0, 0, 0, 0] ++ (Tree.node 1 [ESCAPE, 7, END] [.node 2 [START] []]).encode) n
        (.node 1 [ESCAPE, 7, END] [.node 2 [START] []]) := by
  refine load_encode_and_total.1 [0, 0, 0, 0] [79, 84, 66, 77] rfl (Or.inr rfl) _ ?_
  simp only [Tree.Valid, AllValid]
  decide

end TiabloServer.OTB
