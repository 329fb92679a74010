/-
# Reading plain collections

What the parser makes of the tokens of plain names, block mappings, and small flow collections,
whatever stands behind them.

The parser returns what it has left together with the proof that it is shorter, which is what its
recursion rests on.  `Takes` states a result without that proof, so results compose like the
tokens do: a mapping is taken member by member, and each member's value is a result that was
stated before.  With these lemmas the reading of a definition's text is rewritten along its tokens
instead of being evaluated.
-/
import DocQuery.Yaml.Node

namespace DocQuery.Yaml

def plainToken (text : String) : Token := .scalar .plain text.toList

def plainNode (text : String) : RawNode := .scalar .none .plain text

/-- The tokens of a member's name, with those of its value and of what follows. -/
def memberTokens (name : String) (rest : List Token) : List Token :=
  .key :: plainToken name :: .value :: rest

/-- A reader of tokens gives `a` and leaves `rest`. -/
def Takes {α : Type} {P : List Token → Prop} (r : Option (α × { ts : List Token // P ts })) (a : α)
    (rest : List Token) : Prop :=
  ∃ h, r = some (a, ⟨rest, h⟩)

variable {handles : Handles} {inBlock bare : Bool} {stops : Token → Bool} {ts mid rest : List Token}
  {n : RawNode} {members : List (RawNode × RawNode)} {items : List RawNode}

theorem takes_plain (text : String) :
    Takes (node? handles inBlock bare (plainToken text :: rest)) (plainNode text) rest := by
  simp [Takes, plainToken, plainNode, node?, properties?, Properties.ofScalar, Properties.none]

theorem takes_mapping (h : Takes (blockMembers? handles ts) members rest) :
    Takes (node? handles true bare (.blockMappingStart :: ts)) (.mapping .none members) rest := by
  obtain ⟨shorter, h⟩ := h
  have left : rest.length < ts.length + 1 := by omega
  simp [Takes, node?, properties?, h, left]

theorem takes_flowMapping (h : Takes (flowMembers? handles true ts) members rest) :
    Takes (node? handles inBlock bare (.flowMappingStart :: ts)) (.mapping .none members) rest := by
  obtain ⟨shorter, h⟩ := h
  have left : rest.length < ts.length + 1 := by omega
  simp [Takes, node?, properties?, h, left]

theorem takes_flowSequence (h : Takes (flowItems? handles true ts) items rest) :
    Takes (node? handles inBlock bare (.flowSequenceStart :: ts)) (.sequence .none items) rest := by
  obtain ⟨shorter, h⟩ := h
  have left : rest.length < ts.length + 1 := by omega
  simp [Takes, node?, properties?, h, left]

theorem takes_slot (h : Takes (node? handles inBlock bare ts) n rest)
    (more : nextIs stops ts = false) : Takes (slot? handles inBlock bare stops ts) n rest := by
  obtain ⟨shorter, h⟩ := h
  have left : rest.length ≤ ts.length := by omega
  simp [Takes, slot?, more, h, left]

/-- A sequence of one item, which nothing closes. -/
theorem takes_item (h : Takes (node? handles true false ts) n rest)
    (more : nextIs endsBareItem ts = false) (last : nextIs (· == .blockEntry) rest = false) :
    Takes (node? handles true true (.blockEntry :: ts)) (.sequence .none [n]) rest := by
  obtain ⟨shorter, h⟩ := takes_slot h more
  have left : rest.length < ts.length + 1 := by omega
  have ends : bareItems? handles rest = some ([], ⟨rest, Nat.le_refl _⟩) := by
    rw [bareItems?]
    rintro others rfl
    simp [nextIs] at last
  simp [Takes, node?, properties?, h, ends, left]

theorem takes_end : Takes (blockMembers? handles (.blockEnd :: rest)) [] rest := by
  simp [Takes, blockMembers?]

theorem takes_member {name : String} (h : Takes (node? handles true true ts) n mid)
    (more : nextIs endsBlockMember ts = false)
    (others : Takes (blockMembers? handles mid) members rest) :
    Takes (blockMembers? handles (memberTokens name ts)) ((plainNode name, n) :: members) rest := by
  obtain ⟨_, key⟩ : Takes (slot? handles true true endsBlockMember
      (plainToken name :: .value :: ts)) (plainNode name) (.value :: ts) :=
    takes_slot (takes_plain name) rfl
  obtain ⟨shorter, value⟩ := takes_slot h more
  obtain ⟨fewer, others⟩ := others
  have left : rest.length < ts.length + 1 + 1 + 1 := by omega
  simp [Takes, memberTokens, blockMembers?, value?, key, value, others, left]

theorem takes_oneItem {text : String} :
    Takes (flowItems? handles true (plainToken text :: .flowSequenceEnd :: rest)) [plainNode text]
      rest := by
  obtain ⟨shorter, first⟩ : Takes (node? handles false false
      (plainToken text :: .flowSequenceEnd :: rest)) (plainNode text) (.flowSequenceEnd :: rest) :=
    takes_plain text
  have left : rest.length < rest.length + 1 + 1 := by omega
  rw [plainToken] at first
  simp [Takes, plainToken, flowItems?, afterComma?, first, left]

theorem takes_noMembers : Takes (flowMembers? handles true (.flowMappingEnd :: rest)) [] rest := by
  simp [Takes, flowMembers?]

theorem takes_oneMember {name text : String} :
    Takes (flowMembers? handles true
        (memberTokens name (plainToken text :: .flowMappingEnd :: rest)))
      [(plainNode name, plainNode text)] rest := by
  obtain ⟨_, key⟩ : Takes (slot? handles false false (fun t => t == .value || endsFlowMember t)
      (plainToken name :: .value :: plainToken text :: .flowMappingEnd :: rest)) (plainNode name)
      (.value :: plainToken text :: .flowMappingEnd :: rest) :=
    takes_slot (takes_plain name) rfl
  obtain ⟨_, value⟩ : Takes (slot? handles false false endsFlowMember
      (plainToken text :: .flowMappingEnd :: rest)) (plainNode text) (.flowMappingEnd :: rest) :=
    takes_slot (takes_plain text) rfl
  have left : rest.length < rest.length + 1 + 1 + 1 + 1 + 1 := by omega
  simp [Takes, memberTokens, flowMembers?, afterComma?, value?, key, value, left]

end DocQuery.Yaml
