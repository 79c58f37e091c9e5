import LexerGen.Pattern.Grammar
import LexerGen.Pattern.Yard
import LexerGen.Proofs.Fallible

/-!
# The yard reads phrases

A pattern that has been cut into symbols is a *phrase* if the grammar derives it at the level of
symbols (`Phrase`), where two phrases side by side are concatenated and no symbol says so. The yard
reads every phrase (`takeAll_phrase`).

The stacks may hold anything when a phrase begins. After it, they are not yet what they were with
the tree of the phrase on top, since operators of the phrase may still wait for a symbol that binds
less tightly. But any reduction that takes these operators comes to the same as from there
(`Reached`), and that is what the induction on the phrase carries through.

The concatenations that are not written are inserted before the yard sees the symbols. It makes no
difference to insert each when it is its turn (`feedAll_join`), which is how phrases are read here.
-/

namespace LexerGen.Pattern

open Regex

variable {level : Level} {r l : Regex} {ss ts : List Symbol} {symbol : Symbol} {offset : Nat}
  {found before after : List (Symbol × Nat)}

/-! ### Phrases -/

/-- **The grammar at the level of symbols.** -/
inductive Phrase : Level → List Symbol → Regex → Prop
  | sequence {ss : List Symbol} {r : Regex} : Phrase .sequence ss r → Phrase .alternation ss r
  | union {ss ts : List Symbol} {l r : Regex} : Phrase .sequence ss l → Phrase .alternation ts r →
      Phrase .alternation (ss ++ .binary .union :: ts) (.union l r)
  | repetition {ss : List Symbol} {r : Regex} : Phrase .repetition ss r → Phrase .sequence ss r
  | concat {ss ts : List Symbol} {l r : Regex} : Phrase .repetition ss l → Phrase .sequence ts r →
      Phrase .sequence (ss ++ ts) (.concat l r)
  | atom {ss : List Symbol} {r : Regex} : Phrase .atom ss r → Phrase .repetition ss r
  | quantifier {ss : List Symbol} {r : Regex} (q : Quantifier) : Phrase .repetition ss r →
      Phrase .repetition (ss ++ [.quantifier q]) (q.apply r)
  | group {ss : List Symbol} {r : Regex} : Phrase .alternation ss r →
      Phrase .atom (.openGroup :: ss ++ [.closeGroup]) r
  | operand {r : Regex} : Phrase .atom [.operand r] r

/-- **Every phrase starts with a symbol** that can start an operand. -/
theorem Phrase.exists_cons (h : Phrase level ss r) :
    ∃ symbol ts, ss = symbol :: ts ∧ symbol.startsOperand = true := by
  induction h with
  | sequence _ ih | repetition _ ih | atom _ ih => exact ih
  | union _ _ ih _ | concat _ _ ih _ | quantifier _ _ ih =>
    obtain ⟨symbol, ss, rfl, hsymbol⟩ := ih
    exact ⟨symbol, _, rfl, hsymbol⟩
  | group | operand => exact ⟨_, _, rfl, rfl⟩

/-- **The operators of a level** are those that stand in its expressions outside parentheses. -/
def Level.HasOperator : Level → BinaryOp → Prop
  | .alternation, _ => True
  | .sequence, op => op = .concat
  | .repetition, _ | .atom, _ => False

namespace Yard

variable {y y' : Yard} {operands operands' : List Regex} {pending pending' : List (Pending × Nat)}
  {stop : Pending → Bool} {opened : Option Nat}

/-! ### Taking written symbols -/

/-- **Takes one written symbol**, after the concatenation that is implied before it. -/
def take (y : Yard) (symbol : Symbol) (offset : Nat) : Except PatternError Yard :=
  if y.afterOperand && symbol.startsOperand then do
    let y ← y.feed (.binary .concat) offset
    y.feed symbol offset
  else y.feed symbol offset

/-- Takes written symbols one after the other. -/
def takeAll (y : Yard) : List (Symbol × Nat) → Except PatternError Yard
  | [] => .ok y
  | (symbol, offset) :: rest => do
    let y ← y.take symbol offset
    y.takeAll rest

/-- The yard remembers whether the last symbol ended an operand. -/
theorem afterOperand_feed (h : y.feed symbol offset = .ok y') :
    y'.afterOperand = symbol.endsOperand := by
  cases symbol with
  | operand r | openGroup =>
    cases h
    rfl
  | closeGroup =>
    unfold feed close at h
    dsimp only at h
    split at h
    · obtain ⟨⟨operands, pending⟩, -, h⟩ := bind_eq_ok.1 h
      dsimp only at h
      split at h
      · cases h
      · cases h
        rfl
    · cases h
  | quantifier q | binary op =>
    rw [feed] at h
    split at h
    · obtain ⟨_, -, h⟩ := bind_eq_ok.1 h
      cases h
      rfl
    · cases h

/-- **Inserting the implied concatenations first** comes to the same. -/
theorem feedAll_join : y.feedAll (join y.afterOperand found) = y.takeAll found := by
  induction found generalizing y with
  | nil => rfl
  | cons s found ih =>
    obtain ⟨symbol, offset⟩ := s
    -- whatever the symbol is fed to, the flag for the next one is the one that the yard has
    have hfeed : ∀ y : Yard, (y.feed symbol offset >>= fun y => y.feedAll
        (join symbol.endsOperand found)) = (y.feed symbol offset >>= fun y => y.takeAll found) := by
      intro y
      cases h : y.feed symbol offset with
      | error e => rfl
      | ok y' =>
        show y'.feedAll _ = y'.takeAll found
        rw [← afterOperand_feed h]
        exact ih
    rw [join, takeAll, take]
    split
    · cases h : y.feed (.binary .concat) offset with
      | error e => rw [feedAll, h]; rfl
      | ok y' =>
        rw [feedAll, h]
        exact hfeed y'
    · exact hfeed y

theorem takeAll_append :
    y.takeAll (before ++ after) = (y.takeAll before >>= fun y => y.takeAll after) := by
  induction before generalizing y with
  | nil => rfl
  | cons s before ih =>
    rw [List.cons_append, takeAll, takeAll, bind_assoc]
    exact congrArg _ (funext fun y => ih)

/-! ### Reducing -/

theorem reduce_stop {entry : Pending} (h : stop entry = true) :
    reduce stop operands ((entry, offset) :: pending) =
      .ok (operands, (entry, offset) :: pending) := if_pos h

theorem reduce_binary {op : BinaryOp} (h : stop (.binary op) = false) :
    reduce stop (r :: l :: operands) ((.binary op, offset) :: pending) =
      reduce stop (op.apply l r :: operands) pending := by
  rw [reduce, if_neg (Bool.eq_false_iff.1 h)]
  rfl

/-- **No concatenation is on top** of the operators. -/
def Settled : List (Pending × Nat) → Prop
  | (.binary .concat, _) :: _ => False
  | _ => True

/-- A union takes nothing but concatenations. -/
theorem reduce_of_settled (h : Settled pending) :
    reduce (fun entry => entry.priority ≤ (Pending.binary .union).priority) operands pending =
      .ok (operands, pending) := by
  rcases pending with _ | ⟨⟨_ | _ | _, offset⟩, pending⟩
  · rfl
  · exact reduce_stop rfl
  · exact reduce_stop rfl
  · exact h.elim

theorem reduce_concat :
    reduce (fun entry => entry.priority ≤ (Pending.binary .concat).priority) operands pending =
      .ok (operands, pending) := by
  rcases pending with _ | ⟨⟨_ | _ | _, offset⟩, pending⟩
  · rfl
  all_goals exact reduce_stop rfl

theorem feed_concat (h : y.afterOperand = true) : y.feed (.binary .concat) offset =
    .ok ⟨y.operands, (.binary .concat, offset) :: y.pending, false, none⟩ := by
  rw [feed, if_pos h, reduce_concat]
  rfl

/-! ### Every phrase is read -/

/-- **A phrase has been read** on top of the given stacks. Any reduction that takes all operators of
its level comes to what it comes to if the tree of the phrase is put on these stacks. -/
structure Reached (level : Level) (r : Regex) (operands : List Regex)
    (pending : List (Pending × Nat)) (y : Yard) : Prop where
  afterOperand : y.afterOperand = true
  justOpened : y.justOpened = none
  reduce : ∀ stop, (∀ op, level.HasOperator op → stop (.binary op) = false) →
    reduce stop y.operands y.pending = Yard.reduce stop (r :: operands) pending

theorem reached_tight : Reached level r operands pending ⟨r :: operands, pending, true, none⟩ :=
  ⟨rfl, rfl, fun _ _ => rfl⟩

/-- At a level without operators the tree itself is on top. -/
theorem Reached.eq (h : Reached level r operands pending y)
    (htight : ∀ op, ¬level.HasOperator op) : y = ⟨r :: operands, pending, true, none⟩ := by
  obtain ⟨operands', pending', afterOperand, justOpened⟩ := y
  have hstay : ∀ operands pending,
      Yard.reduce (fun _ => true) operands pending = .ok (operands, pending) := by
    intro operands pending
    rcases pending with _ | ⟨entry, pending⟩ <;> rfl
  have hreduce := h.reduce (fun _ => true) fun op hop => absurd hop (htight op)
  rw [hstay, hstay] at hreduce
  obtain ⟨rfl, rfl⟩ := Prod.mk.inj (Except.ok.inj hreduce)
  obtain rfl : afterOperand = true := h.afterOperand
  obtain rfl : justOpened = none := h.justOpened
  rfl

theorem Reached.mono {level' : Level} (h : Reached level r operands pending y)
    (hlevel : ∀ op, level.HasOperator op → level'.HasOperator op) :
    Reached level' r operands pending y :=
  ⟨h.afterOperand, h.justOpened, fun stop hstop => h.reduce stop fun op hop =>
    hstop op (hlevel op hop)⟩

/-- After an operand, an operand starts as after a concatenation. -/
theorem takeAll_afterOperand {s : Symbol × Nat} (hs : s.1.startsOperand = true) :
    takeAll ⟨operands, pending, true, none⟩ (s :: found) =
      takeAll ⟨operands, (.binary .concat, s.2) :: pending, false, none⟩ (s :: found) := by
  obtain ⟨symbol, offset⟩ := s
  have hsymbol : symbol.startsOperand = true := hs
  rw [takeAll, takeAll, take, take, hsymbol]
  show ((feed ⟨operands, pending, true, none⟩ (.binary .concat) offset >>= _) >>= _) = _
  rw [feed_concat rfl]
  rfl

/-- **Reading a phrase succeeds** on any stacks, except that a phrase with unions of its own must
not follow a concatenation. -/
theorem takeAll_phrase (operands : List Regex) (pending : List (Pending × Nat))
    (opened : Option Nat) (h : Phrase level ss r) (hss : found.map Prod.fst = ss)
    (hsettled : level = .alternation → Settled pending) :
    ∃ y, takeAll ⟨operands, pending, false, opened⟩ found = .ok y ∧
      Reached level r operands pending y := by
  induction h generalizing found operands pending opened with
  | sequence _ ih =>
    obtain ⟨y, hy, hreached⟩ := ih operands pending opened hss nofun
    exact ⟨y, hy, hreached.mono fun _ _ => trivial⟩
  | repetition _ ih =>
    obtain ⟨y, hy, hreached⟩ := ih operands pending opened hss nofun
    exact ⟨y, hy, hreached.mono fun _ => False.elim⟩
  | atom _ ih =>
    obtain ⟨y, hy, hreached⟩ := ih operands pending opened hss nofun
    exact ⟨y, hy, hreached.mono fun _ => False.elim⟩
  | @union ss ts l r _ _ ihl ihr =>
    obtain ⟨left, rest, rfl, hleft, hrest⟩ := List.map_eq_append_iff.1 hss
    obtain ⟨⟨bar, offset⟩, right, rfl, rfl, hright⟩ := List.map_eq_cons_iff.1 hrest
    obtain ⟨y, hy, hl⟩ := ihl operands pending opened hleft nofun
    -- the bar takes the concatenations of the left operand, and nothing below it
    have hreduce := hl.reduce (fun entry => entry.priority ≤ (Pending.binary .union).priority)
      fun op hop => by cases hop; rfl
    rw [reduce_of_settled (hsettled rfl)] at hreduce
    have hbar : y.take (.binary .union) offset =
        .ok ⟨l :: operands, (.binary .union, offset) :: pending, false, none⟩ := by
      show (if y.afterOperand && false then _ else _) = _
      rw [Bool.and_false, if_neg Bool.false_ne_true, feed, if_pos hl.afterOperand, hreduce]
      rfl
    obtain ⟨y', hy', hr⟩ := ihr (l :: operands) ((.binary .union, offset) :: pending) none hright
      fun _ => trivial
    refine ⟨y', ?_, hr.afterOperand, hr.justOpened, fun stop hstop => ?_⟩
    · rw [takeAll_append, hy]
      show (y.take (.binary .union) offset >>= fun y => y.takeAll right) = _
      rw [hbar]
      exact hy'
    · rw [hr.reduce stop hstop, reduce_binary (hstop _ trivial)]
      rfl
  | @concat ss ts l r _ hright ihl ihr =>
    obtain ⟨left, right, rfl, hl, hr⟩ := List.map_eq_append_iff.1 hss
    obtain ⟨y, hy, hleft⟩ := ihl operands pending opened hl nofun
    obtain rfl := hleft.eq fun _ => id
    -- the right operand starts with a symbol before which the concatenation is implied
    obtain ⟨symbol, ts, rfl, hsymbol⟩ := hright.exists_cons
    obtain ⟨s, right, rfl, rfl, hts⟩ := List.map_eq_cons_iff.1 hr
    obtain ⟨y', hy', hr'⟩ := ihr (l :: operands) ((.binary .concat, s.2) :: pending) none hr nofun
    refine ⟨y', ?_, hr'.afterOperand, hr'.justOpened, fun stop hstop => ?_⟩
    · rw [takeAll_append, hy]
      show takeAll _ (s :: right) = _
      rw [takeAll_afterOperand hsymbol]
      exact hy'
    · rw [hr'.reduce stop hstop, reduce_binary (hstop _ rfl)]
      rfl
  | quantifier q _ ih =>
    obtain ⟨operand, last, rfl, hoperand, hlast⟩ := List.map_eq_append_iff.1 hss
    obtain ⟨⟨_, offset⟩, _, rfl, rfl, hnil⟩ := List.map_eq_cons_iff.1 hlast
    obtain rfl := List.map_eq_nil_iff.1 hnil
    obtain ⟨y, hy, hreached⟩ := ih operands pending opened hoperand nofun
    obtain rfl := hreached.eq fun _ => id
    refine ⟨_, ?_, reached_tight⟩
    rw [takeAll_append, hy]
    rfl
  | @group ss r _ ih =>
    obtain ⟨⟨_, offset⟩, rest, rfl, rfl, hrest⟩ := List.map_eq_cons_iff.1 hss
    obtain ⟨body, last, rfl, hbody, hlast⟩ := List.map_eq_append_iff.1 hrest
    obtain ⟨⟨_, offset'⟩, _, rfl, rfl, hnil⟩ := List.map_eq_cons_iff.1 hlast
    obtain rfl := List.map_eq_nil_iff.1 hnil
    obtain ⟨y, hy, hreached⟩ := ih operands ((.group, offset) :: pending) (some offset) hbody
      fun _ => trivial
    -- closing takes all operators of the group, down to its parenthesis
    have hreduce := hreached.reduce (· == .group) fun op _ => rfl
    rw [reduce_stop rfl] at hreduce
    have hclose : y.take .closeGroup offset' = .ok ⟨r :: operands, pending, true, none⟩ := by
      show (if y.afterOperand && false then _ else y.close offset') = _
      rw [Bool.and_false, if_neg Bool.false_ne_true, close, if_pos hreached.afterOperand, hreduce]
      rfl
    refine ⟨_, ?_, reached_tight⟩
    show takeAll _ (body ++ [_]) = _
    rw [takeAll_append, hy]
    show (y.take .closeGroup offset' >>= _) = _
    rw [hclose]
    rfl
  | operand =>
    obtain ⟨⟨_, offset⟩, _, rfl, rfl, hnil⟩ := List.map_eq_cons_iff.1 hss
    obtain rfl := List.map_eq_nil_iff.1 hnil
    exact ⟨_, rfl, reached_tight⟩

end Yard

end LexerGen.Pattern
