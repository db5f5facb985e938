import TiabloServer.Lib.Lines

/-!
# Access lists of houses

`AccessList::parseList` reads who may enter a house from a text (`map/house/house.cpp`). Characters
that it does not accept and empty lines are dropped, and each line stands for everyone, a player, a
guild, or a rank of a guild. A rank is read without its last character.

## Main definitions

* `AccessList.meaningOf` — what a line says.
* `AccessList.Undisturbed` — what is read lets in whom the lines mean.

## Main results

* `AccessList.isInList_parseList` — a player is in the list when a line lets him in, as it is read.
* `AccessList.parseList_getList` — the text that is kept is read as the one before.
* `AccessList.parseList_iff` — the list means what it says exactly when it is undisturbed.
-/

namespace TiabloServer.AccessList

/-! ## The functions of the source -/

abbrev Str : Type := List Char

def NETWORKMESSAGE_PLAYERNAME_MAXLENGTH : ℕ := 30

structure GuildRank where
  id : ℕ
  name : Str

structure Guild where
  ranks : List GuildRank

/-- The players that are online, the ids of players in the database (0 for none), and the guilds. -/
structure World where
  getPlayerByName : Str → Option ℕ
  getGuidByName : Str → ℕ
  getGuildByName : Str → Option Guild

structure Player where
  guid : ℕ
  guildRank : Option ℕ

/-- `AccessList`. -/
structure Access where
  list : Str
  playerList : Finset ℕ
  guildRankList : Finset ℕ
  allowEveryone : Bool

/-- What `regexValidChars` does not drop. -/
def validChar (c : Char) : Bool :=
  c.isAlpha || c = Char.ofNat 39 || c = ' ' || c = '\n' || c = '*' || c = '!' || c = '@' || c = '#'

/-- The lines of a text that are not empty. -/
def nonempty (text : Str) : List Str := (Lines.split '\n' text).filter (· ≠ [])

/-- `validList`: what is kept of a text. -/
def validList (list : Str) : Str := Lines.unlines '\n' (nonempty (list.filter validChar))

def trim_left (t : Char) (source : Str) : Str := source.dropWhile (· = t)

def trim_right (t : Char) (source : Str) : Str := (source.reverse.dropWhile (· = t)).reverse

def trimString (str : Str) : Str := trim_left ' ' (trim_right ' ' str)

/-- A line after trimming. -/
def trimmed (line : Str) : Str := trimString (trim_right '\t' (trim_left '\t' (trimString line)))

def toLowerCaseString (source : Str) : Str := source.map Char.toLower

/-- What is done with a line. -/
inductive Entry where
  | skip
  | everyone
  | player (name : Str)
  | guild (name : Str)
  | guildRank (name guildName : Str)
deriving DecidableEq

/-- Nothing is read from a line. -/
def ignored (line : Str) : Bool := line.isEmpty || line.head? = some '#' || line.length > 100

/-- What is read from a line. -/
def entryOf (line : Str) : Entry :=
  let line := trimmed line
  if ignored line then .skip
  else
    let line := toLowerCaseString line
    match line.idxOf? '@' with
    | some at_pos =>
      if at_pos = 0 then .guild (line.drop 1)
      else .guildRank (line.take (at_pos - 1)) (line.drop (at_pos + 1))
    | none =>
      if line = ['*'] then .everyone
      else if line.any fun c => c = '!' || c = '*' || c = '?' then .skip
      else if line.length ≤ NETWORKMESSAGE_PLAYERNAME_MAXLENGTH then .player line
      else .skip

/-- `Guild::getRankByName`. -/
def Guild.getRankByName (guild : Guild) (name : Str) : Option GuildRank :=
  guild.ranks.find? fun rank => rank.name = name

section Source

variable (w : World)

/-- The id of the player with a name, who is online or in the database. -/
def guidOf (name : Str) : Option ℕ :=
  match w.getPlayerByName name with
  | some guid => some guid
  | none => if w.getGuidByName name ≠ 0 then some (w.getGuidByName name) else none

def addPlayer (a : Access) (name : Str) : Access :=
  match guidOf w name with
  | some guid => { a with playerList := insert guid a.playerList }
  | none => a

def addGuild (a : Access) (name : Str) : Access :=
  match w.getGuildByName name with
  | some guild => { a with guildRankList := a.guildRankList ∪ (guild.ranks.map GuildRank.id).toFinset }
  | none => a

def addGuildRank (a : Access) (name guildName : Str) : Access :=
  match w.getGuildByName guildName with
  | some guild =>
    match guild.getRankByName name with
    | some rank => { a with guildRankList := insert rank.id a.guildRankList }
    | none => a
  | none => a

/-- What an entry does. -/
def add (a : Access) : Entry → Access
  | .skip => a
  | .everyone => { a with allowEveryone := true }
  | .player name => addPlayer w a name
  | .guild name => addGuild w a name
  | .guildRank name guildName => addGuildRank w a name guildName

/-- `AccessList::parseList`. -/
def parseList (list : Str) : Access :=
  let cleared : Access := ⟨validList list, ∅, ∅, false⟩
  if list = [] then cleared
  else (Lines.splitAtMost '\n' 100 (validList list)).foldl (fun a line => add w a (entryOf line)) cleared

/-- `AccessList::isInList`. -/
def isInList (a : Access) (player : Player) : Bool :=
  a.allowEveryone || player.guid ∈ a.playerList || player.guildRank.any (· ∈ a.guildRankList)

/-- `AccessList::getList`. -/
def getList (a : Access) : Str := a.list

end Source

/-! ## What a list says -/

section Spec

variable (w : World)

/-- The lines of a list. -/
def linesOf (list : Str) : List Str := nonempty (list.filter validChar)

/-- What a line says: names with blanks around them do not count the blanks. -/
def meaningOf (line : Str) : Entry :=
  let line := trimmed line
  if ignored line then .skip
  else
    let line := toLowerCaseString line
    match line.idxOf? '@' with
    | some at_pos =>
      if at_pos = 0 then .guild (trimString (line.drop 1))
      else .guildRank (trimString (line.take at_pos)) (trimString (line.drop (at_pos + 1)))
    | none => if line = ['*'] then .everyone else .player line

/-- An entry names a player. -/
def Names (e : Entry) (guid : ℕ) : Prop := ∃ name, e = .player name ∧ guidOf w name = some guid

/-- An entry gives a rank to the list, when ranks are looked up as they are written. -/
def Gives : Entry → ℕ → Prop
  | .guild name, id => ∃ guild, w.getGuildByName name = some guild ∧ ∃ rank ∈ guild.ranks, rank.id = id
  | .guildRank name guildName, id =>
    ∃ guild, w.getGuildByName guildName = some guild ∧ ∃ rank, guild.getRankByName name = some rank ∧ rank.id = id
  | _, _ => False

/-- An entry means a rank, whose name is compared in lower case. -/
def Means : Entry → ℕ → Prop
  | .guild name, id => ∃ guild, w.getGuildByName name = some guild ∧ ∃ rank ∈ guild.ranks, rank.id = id
  | .guildRank name guildName, id =>
    ∃ guild, w.getGuildByName guildName = some guild ∧
      ∃ rank ∈ guild.ranks, toLowerCaseString rank.name = name ∧ rank.id = id
  | _, _ => False

/-- Some line says that a player may enter. -/
def Meant (list : Str) (player : Player) : Prop :=
  ∃ line ∈ linesOf list, meaningOf line = .everyone ∨ Names w (meaningOf line) player.guid ∨
    ∃ id, player.guildRank = some id ∧ Means w (meaningOf line) id

/-- Players on lines that are skipped are named on others too; a rank that is found with what is
read from a line is meant by one; and a rank that is meant is found with what is read. -/
structure Undisturbed (list : Str) : Prop where
  names : ∀ line ∈ linesOf list, entryOf line = .skip → ∀ guid, Names w (meaningOf line) guid →
    ∃ line' ∈ linesOf list, Names w (entryOf line') guid
  given : ∀ line ∈ linesOf list, ∀ id, Gives w (entryOf line) id → ∃ line' ∈ linesOf list, Means w (meaningOf line') id
  meant : ∀ line ∈ linesOf list, ∀ id, Means w (meaningOf line) id → ∃ line' ∈ linesOf list, Gives w (entryOf line') id

end Spec

/-! ## What a list lets in -/

section Entries

variable {w : World}

/-- A player only goes to the players. -/
theorem addPlayer_frame (a : Access) (name : Str) :
    (addPlayer w a name).list = a.list ∧ (addPlayer w a name).guildRankList = a.guildRankList ∧
      (addPlayer w a name).allowEveryone = a.allowEveryone := by
  unfold addPlayer
  split <;> exact ⟨rfl, rfl, rfl⟩

/-- A guild only goes to the ranks. -/
theorem addGuild_frame (a : Access) (name : Str) :
    (addGuild w a name).list = a.list ∧ (addGuild w a name).playerList = a.playerList ∧
      (addGuild w a name).allowEveryone = a.allowEveryone := by
  unfold addGuild
  split <;> exact ⟨rfl, rfl, rfl⟩

theorem addGuildRank_frame (a : Access) (name guildName : Str) : (addGuildRank w a name guildName).list = a.list ∧
      (addGuildRank w a name guildName).playerList = a.playerList ∧
      (addGuildRank w a name guildName).allowEveryone = a.allowEveryone := by
  unfold addGuildRank
  split
  · split <;> exact ⟨rfl, rfl, rfl⟩
  · exact ⟨rfl, rfl, rfl⟩

theorem list_add (a : Access) (e : Entry) : (add w a e).list = a.list := by
  cases e with
  | skip => rfl
  | everyone => rfl
  | player name => exact (addPlayer_frame a name).1
  | guild name => exact (addGuild_frame a name).1
  | guildRank name guildName => exact (addGuildRank_frame a name guildName).1

theorem allowEveryone_add (a : Access) (e : Entry) :
    (add w a e).allowEveryone = true ↔ a.allowEveryone = true ∨ e = .everyone := by
  cases e with
  | skip => simp [add]
  | everyone => simp [add]
  | player name => simp [add, (addPlayer_frame a name).2.2]
  | guild name => simp [add, (addGuild_frame a name).2.2]
  | guildRank name guildName => simp [add, (addGuildRank_frame a name guildName).2.2]

theorem mem_playerList_add (a : Access) (e : Entry) (guid : ℕ) :
    guid ∈ (add w a e).playerList ↔ guid ∈ a.playerList ∨ Names w e guid := by
  cases e with
  | skip => simp [add, Names]
  | everyone => simp [add, Names]
  | player name =>
    cases h : guidOf w name with
    | none => simp [add, addPlayer, Names, h]
    | some g => simp [add, addPlayer, Names, h, or_comm, eq_comm]
  | guild name => simp [add, (addGuild_frame a name).2.1, Names]
  | guildRank name guildName => simp [add, (addGuildRank_frame a name guildName).2.1, Names]

theorem mem_guildRankList_add (a : Access) (e : Entry) (id : ℕ) :
    id ∈ (add w a e).guildRankList ↔ id ∈ a.guildRankList ∨ Gives w e id := by
  cases e with
  | skip => simp [add, Gives]
  | everyone => simp [add, Gives]
  | player name => simp [add, (addPlayer_frame a name).2.1, Gives]
  | guild name =>
    cases h : w.getGuildByName name with
    | none => simp [add, addGuild, Gives, h]
    | some guild => simp [add, addGuild, Gives, h]
  | guildRank name guildName =>
    cases h : w.getGuildByName guildName with
    | none => simp [add, addGuildRank, Gives, h]
    | some guild =>
      cases hrank : guild.getRankByName name with
      | none => simp [add, addGuildRank, Gives, h, hrank]
      | some rank => simp [add, addGuildRank, Gives, h, hrank, or_comm, eq_comm]

/-- An entry lets a player in. -/
def LetsIn (w : World) (e : Entry) (player : Player) : Prop :=
  e = .everyone ∨ Names w e player.guid ∨ ∃ id, player.guildRank = some id ∧ Gives w e id

theorem isInList_iff {a : Access} {player : Player} :
    isInList a player = true ↔ a.allowEveryone = true ∨ player.guid ∈ a.playerList ∨
      ∃ id, player.guildRank = some id ∧ id ∈ a.guildRankList := by
  cases h : player.guildRank <;> simp [isInList, h, or_assoc]

/-- Entries let in whom one of them lets in. -/
theorem isInList_foldl (lines : List Str) (a : Access) (player : Player) :
    isInList (lines.foldl (fun a line => add w a (entryOf line)) a) player = true ↔
      isInList a player = true ∨ ∃ line ∈ lines, LetsIn w (entryOf line) player := by
  induction lines generalizing a with
  | nil => simp
  | cons line lines ih =>
    have hadd : isInList (add w a (entryOf line)) player = true ↔
        isInList a player = true ∨ LetsIn w (entryOf line) player := by
      simp only [isInList_iff, allowEveryone_add, mem_playerList_add, mem_guildRankList_add, LetsIn, and_or_left,
        exists_or]
      constructor
      · rintro ((h | h) | (h | h) | h | h)
        · exact .inl (.inl h)
        · exact .inr (.inl h)
        · exact .inl (.inr (.inl h))
        · exact .inr (.inr (.inl h))
        · exact .inl (.inr (.inr h))
        · exact .inr (.inr (.inr h))
      · rintro ((h | h | h) | h | h | h)
        · exact .inl (.inl h)
        · exact .inr (.inl (.inl h))
        · exact .inr (.inr (.inl h))
        · exact .inl (.inr h)
        · exact .inr (.inl (.inr h))
        · exact .inr (.inr (.inr h))
    rw [List.foldl_cons, ih, hadd, List.exists_mem_cons_iff, or_assoc]

theorem mem_linesOf {list line : Str} (h : line ∈ linesOf list) :
    '\n' ∉ line ∧ line ≠ [] ∧ ∀ c ∈ line, validChar c = true := by
  obtain ⟨hsplit, hne⟩ := List.mem_filter.1 h
  obtain ⟨hsep, hmem⟩ := Lines.mem_of_mem_split hsplit
  exact ⟨hsep, by simpa using hne, fun c hc => (List.mem_filter.1 (hmem c hc)).2⟩

/-- **A player is in the list** when a line lets him in, as it is read. -/
theorem isInList_parseList {list : Str} (hlength : (linesOf list).length ≤ 100) (player : Player) :
    isInList (parseList w list) player = true ↔ ∃ line ∈ linesOf list, LetsIn w (entryOf line) player := by
  have hcleared : isInList ⟨validList list, ∅, ∅, false⟩ player = false := by
    cases h : player.guildRank <;> simp [isInList, h]
  by_cases hempty : list = []
  · subst hempty
    simp [parseList, hcleared, linesOf, nonempty, Lines.split]
  · have hlines : Lines.splitAtMost '\n' 100 (validList list) = linesOf list ++ [[]] :=
      Lines.splitAtMost_unlines (fun line h => (mem_linesOf h).1) hlength
    have hskip : ¬ LetsIn w (entryOf []) player := by
      have : entryOf [] = .skip := rfl
      simp [LetsIn, this, Names, Gives]
    rw [parseList, if_neg hempty, hlines, isInList_foldl, hcleared]
    simp [or_and_right, exists_or, hskip]

/-! ## Reading the kept text -/

theorem validList_validList (list : Str) : validList (validList list) = validList list := by
  have hvalid : (validList list).filter validChar = validList list := by
    refine List.filter_eq_self.2 fun c hc => ?_
    obtain ⟨line, hline, hc⟩ := List.mem_flatMap.1 hc
    rcases List.mem_append.1 hc with hc | hc
    · exact (mem_linesOf hline).2.2 c hc
    · rw [List.mem_singleton.1 hc]
      rfl
  have hlines : nonempty (validList list) = linesOf list := by
    have hsplit : Lines.split '\n' (validList list) = linesOf list ++ [[]] :=
      Lines.split_unlines fun line h => (mem_linesOf h).1
    rw [nonempty, hsplit, List.filter_append,
      List.filter_eq_self.2 fun line h => by simpa using (mem_linesOf h).2.1]
    simp
  rw [validList, hvalid, hlines]
  rfl

/-- **The text that is kept** is read as the one before. -/
theorem parseList_getList (list : Str) : parseList w (getList (parseList w list)) = parseList w list := by
  have hlist : getList (parseList w list) = validList list := by
    have hkeep (lines : List Str) (a : Access) :
        (lines.foldl (fun a line => add w a (entryOf line)) a).list = a.list := by
      induction lines generalizing a with
      | nil => rfl
      | cons line lines ih =>
        rw [List.foldl_cons, ih, list_add]
    unfold getList parseList
    split_ifs
    · rfl
    · exact hkeep _ _
  rw [hlist]
  unfold parseList
  rw [validList_validList]
  by_cases hempty : list = []
  · subst hempty
    rfl
  · by_cases hvalid : validList list = []
    · rw [if_pos hvalid, if_neg hempty, hvalid]
      rfl
    · rw [if_neg hvalid, if_neg hempty]

/-! ## What is read and what is meant -/

/-- How what is read from a line and what it says go together. -/
theorem line_cases (line : Str) : (entryOf line = .skip ∧ meaningOf line = .skip) ∨
    (entryOf line = .everyone ∧ meaningOf line = .everyone) ∨
    (∃ name, (entryOf line = .player name ∨ entryOf line = .skip) ∧ meaningOf line = .player name) ∨
    (∃ name, entryOf line = .guild name ∧ meaningOf line = .guild (trimString name)) ∨
    ∃ name name' guildName, entryOf line = .guildRank name guildName ∧
      meaningOf line = .guildRank name' (trimString guildName) := by
  unfold entryOf meaningOf
  dsimp only
  by_cases hignored : ignored (trimmed line) = true
  · rw [if_pos hignored, if_pos hignored]
    exact .inl ⟨rfl, rfl⟩
  rw [if_neg hignored, if_neg hignored]
  generalize toLowerCaseString (trimmed line) = lower
  cases lower.idxOf? '@' with
  | some at_pos =>
    by_cases hzero : at_pos = 0
    · refine .inr (.inr (.inr (.inl ⟨lower.drop 1, ?_, ?_⟩)))
      · exact if_pos hzero
      · exact if_pos hzero
    · refine .inr (.inr (.inr (.inr ⟨lower.take (at_pos - 1),
        trimString (lower.take at_pos), lower.drop (at_pos + 1), ?_, ?_⟩)))
      · exact if_neg hzero
      · exact if_neg hzero
  | none =>
    dsimp only
    by_cases hstar : lower = ['*']
    · rw [if_pos hstar, if_pos hstar]
      exact .inr (.inl ⟨rfl, rfl⟩)
    · rw [if_neg hstar, if_neg hstar]
      refine .inr (.inr (.inl ⟨lower, ?_, rfl⟩))
      split_ifs
      · exact .inr rfl
      · exact .inl rfl
      · exact .inr rfl

/-- A line is read for everyone exactly when it says so. -/
theorem entryOf_everyone {line : Str} : entryOf line = .everyone ↔ meaningOf line = .everyone := by
  rcases line_cases line with ⟨h, h'⟩ | ⟨h, h'⟩ | ⟨_, h | h, h'⟩ | ⟨_, h, h'⟩ | ⟨_, _, _, h, h'⟩ <;>
    simp [h, h']

/-- What is read as a player means him. -/
theorem meaningOf_of_player {line name : Str} (hentry : entryOf line = .player name) :
    meaningOf line = .player name := by
  rcases line_cases line with ⟨h, h'⟩ | ⟨h, h'⟩ | ⟨_, h | h, h'⟩ | ⟨_, h, h'⟩ | ⟨_, _, _, h, h'⟩ <;>
    rw [h] at hentry <;> cases hentry
  exact h'

/-- A player that a line names is read from it, or nothing is. -/
theorem entryOf_of_player {line name : Str} (hmeaning : meaningOf line = .player name) :
    entryOf line = .player name ∨ entryOf line = .skip := by
  rcases line_cases line with ⟨h, h'⟩ | ⟨h, h'⟩ | ⟨_, h, h'⟩ | ⟨_, h, h'⟩ | ⟨_, _, _, h, h'⟩ <;>
    rw [h'] at hmeaning <;> cases hmeaning
  exact h

theorem names_meaningOf {line : Str} {guid : ℕ} (h : Names w (entryOf line) guid) :
    Names w (meaningOf line) guid := by
  obtain ⟨name, hentry, hguid⟩ := h
  exact ⟨name, meaningOf_of_player hentry, hguid⟩

variable (w) in
/-- The id that a line names. -/
def namedBy (line : Str) : Option ℕ :=
  match meaningOf line with
  | .player name => guidOf w name
  | _ => none

variable (w) in
/-- There is an id that no line names. -/
theorem exists_unnamed (lines : List Str) : ∃ guid, ∀ line ∈ lines, ¬ Names w (meaningOf line) guid := by
  obtain ⟨guid, hguid⟩ := Infinite.exists_notMem_finset (lines.filterMap (namedBy w)).toFinset
  refine ⟨guid, fun line hline hnames => hguid ?_⟩
  obtain ⟨name, hmeaning, hname⟩ := hnames
  rw [List.mem_toFinset, List.mem_filterMap]
  exact ⟨line, hline, by simp only [namedBy, hmeaning, hname]⟩

/-- **The list means what it says** exactly when a line lets everyone in, or what is read from the
lines is undisturbed; and the text that is kept is read as the one before.

**Proof sketch.** A player of no guild is in the list by his name only, and a player whom no line
names by his rank only, so that names and ranks can be told apart. -/
theorem parseList_iff (w : World) (list : Str) (hlength : (linesOf list).length ≤ 100) :
    ((∀ player, isInList (parseList w list) player = true ↔ Meant w list player) ↔
      (∃ line ∈ linesOf list, entryOf line = .everyone) ∨ Undisturbed w list) ∧
    parseList w (getList (parseList w list)) = parseList w list := by
  refine ⟨?_, parseList_getList list⟩
  simp only [isInList_parseList hlength]
  by_cases heveryone : ∃ line ∈ linesOf list, entryOf line = .everyone
  · refine ⟨fun _ => .inl heveryone, fun _ player => ?_⟩
    obtain ⟨line, hline, hentry⟩ := heveryone
    exact ⟨fun _ => ⟨line, hline, .inl (entryOf_everyone.1 hentry)⟩, fun _ => ⟨line, hline, .inl hentry⟩⟩
  have hnone (line : Str) (hline : line ∈ linesOf list) : entryOf line ≠ .everyone :=
    fun h => heveryone ⟨line, hline, h⟩
  have hnone' (line : Str) (hline : line ∈ linesOf list) : meaningOf line ≠ .everyone :=
    fun h => hnone line hline (entryOf_everyone.2 h)
  obtain ⟨guid₀, hguid₀⟩ := exists_unnamed w (linesOf list)
  constructor
  · refine fun h => .inr ⟨?_, ?_, ?_⟩
    · intro line hline _ guid hnames
      obtain ⟨line', hline', hin⟩ := (h ⟨guid, none⟩).2 ⟨line, hline, .inr (.inl hnames)⟩
      rcases hin with hin | hin | ⟨id, hid, -⟩
      · exact absurd hin (hnone line' hline')
      · exact ⟨line', hline', hin⟩
      · cases hid
    · intro line hline id hgives
      obtain ⟨line', hline', hin⟩ := (h ⟨guid₀, some id⟩).1 ⟨line, hline, .inr (.inr ⟨id, rfl, hgives⟩)⟩
      rcases hin with hin | hin | ⟨id', hid, hmeans⟩
      · exact absurd hin (hnone' line' hline')
      · exact absurd hin (hguid₀ line' hline')
      · cases hid
        exact ⟨line', hline', hmeans⟩
    · intro line hline id hmeans
      obtain ⟨line', hline', hin⟩ := (h ⟨guid₀, some id⟩).2 ⟨line, hline, .inr (.inr ⟨id, rfl, hmeans⟩)⟩
      rcases hin with hin | hin | ⟨id', hid, hgives⟩
      · exact absurd hin (hnone line' hline')
      · exact absurd (names_meaningOf hin) (hguid₀ line' hline')
      · cases hid
        exact ⟨line', hline', hgives⟩
  · intro h player
    have h := h.resolve_left heveryone
    constructor
    · rintro ⟨line, hline, hin | hin | ⟨id, hid, hgives⟩⟩
      · exact absurd hin (hnone line hline)
      · exact ⟨line, hline, .inr (.inl (names_meaningOf hin))⟩
      · obtain ⟨line', hline', hmeans⟩ := h.given line hline id hgives
        exact ⟨line', hline', .inr (.inr ⟨id, hid, hmeans⟩)⟩
    · rintro ⟨line, hline, hin | hin | ⟨id, hid, hmeans⟩⟩
      · exact absurd hin (hnone' line hline)
      · obtain ⟨name, hmeaning, hguid⟩ := hin
        rcases entryOf_of_player hmeaning with hentry | hskip
        · exact ⟨line, hline, .inr (.inl ⟨name, hentry, hguid⟩)⟩
        · obtain ⟨line', hline', hnames⟩ := h.names line hline hskip player.guid ⟨name, hmeaning, hguid⟩
          exact ⟨line', hline', .inr (.inl hnames)⟩
      · obtain ⟨line', hline', hgives⟩ := h.meant line hline id hmeans
        exact ⟨line', hline', .inr (.inr ⟨id, hid, hgives⟩)⟩

end Entries

/-- A guild with the ranks `guest` and `host`, and nobody else. -/
def inn : World where
  getPlayerByName _ := none
  getGuidByName _ := 0
  getGuildByName name :=
    if name = "inn".toList then some ⟨[⟨1, "guest".toList⟩, ⟨2, "host".toList⟩]⟩ else none

theorem parseList_iff_inn :
    ((∀ player, isInList (parseList inn "@inn".toList) player = true ↔ Meant inn "@inn".toList player) ↔
      (∃ line ∈ linesOf "@inn".toList, entryOf line = .everyone) ∨ Undisturbed inn "@inn".toList) ∧
    parseList inn (getList (parseList inn "@inn".toList)) = parseList inn "@inn".toList :=
  parseList_iff inn "@inn".toList (by decide)

/-- The hosts are not let in by a line for them: the rank that is looked up is `hos`. -/
theorem not_meant_host :
    isInList (parseList inn "host@inn".toList) ⟨7, some 2⟩ = false ∧
      Meant inn "host@inn".toList ⟨7, some 2⟩ := by
  have hlines : linesOf "host@inn".toList = ["host@inn".toList] := by decide
  refine ⟨by decide, "host@inn".toList, by rw [hlines]; exact List.mem_singleton_self _, .inr (.inr ⟨2, rfl, ?_⟩)⟩
  have hmeaning : meaningOf "host@inn".toList = .guildRank "host".toList "inn".toList := by decide
  rw [hmeaning]
  exact ⟨_, rfl, ⟨2, "host".toList⟩, by simp, by decide, rfl⟩

end TiabloServer.AccessList
