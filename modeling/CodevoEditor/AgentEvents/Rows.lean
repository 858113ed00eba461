/-
# Live retention on a plain list

Without the index: a snapshot looks back over the retained rows for the last one that `touches` its
target, and renews it in place.
-/

import CodevoEditor.AgentEvents.RetentionRuns
import CodevoEditor.Window.Replace

namespace CodevoEditor.AgentEvents

open Js Window

/-- The keys of a target: the kind of its slots in the index and the id. -/
def slotKeys : AgentTurnSnapshotTarget → List (LiveSlotKind × JsString)
  | .identity scope id => [(.keyed scope, id)]
  | .subagentIds ids =>
      (ids.toolId.map (Prod.mk LiveSlotKind.subagentTool)).toList ++
        (ids.taskId.map (Prod.mk LiveSlotKind.subagentTask)).toList

/-- The kinds of slots that a scope holds. -/
def AgentTurnSnapshotScope.covers : AgentTurnSnapshotScope → LiveSlotKind → Bool
  | .keyed own, .keyed kind => own = kind
  | .subagent, .subagentTool => true
  | .subagent, .subagentTask => true
  | _, _ => false

/-- A barrier names the key or its scope. -/
def AgentTurnBarrierTarget.reaches (key : LiveSlotKind × JsString) : AgentTurnBarrierTarget → Bool
  | .target own => key ∈ slotKeys own
  | .scope own => own.covers key.1

/-- The row is a snapshot under the key or a barrier for it. -/
def touchesKey (key : LiveSlotKind × JsString) (row : AgentTurnEvent) : Bool :=
  match agentTurnEventSupersession row with
  | .snapshot target => key ∈ slotKeys target
  | .barrier targets => targets.any (·.reaches key)
  | .content => false

/-- The row touches a key of the target. -/
def touches (target : AgentTurnSnapshotTarget) (row : AgentTurnEvent) : Bool :=
  (slotKeys target).any (touchesKey · row)

variable (rows : List AgentTurnEvent)

/-- How many rows link `toolId` with `taskId`. -/
def linkCount (toolId taskId : JsString) : ℕ :=
  rows.countP fun row => agentTurnSubagentAlias row = some (toolId, taskId)

/-- The alias index of rows. -/
def aliasesOf : AgentTurnSubagentAliasIndex :=
  rows.foldl (fun aliases row =>
    match agentTurnSubagentAlias row with
    | none => aliases
    | some link => retainAgentTurnSubagentAlias aliases link 1) createAgentTurnSubagentAliasIndex

/-- What ids resolve to among rows. -/
def resolveAmong (ids : AgentTurnSubagentIds) : AgentTurnSubagentResolution :=
  resolveAgentTurnSubagentIds (aliasesOf rows) ids

/-- Renew the last row that touches `target`; not behind text that may still
grow. -/
def supersedeRow (target : AgentTurnSnapshotTarget) (event : AgentTurnEvent) : Option (List AgentTurnEvent) :=
  if rows.getLast?.any isAgentTurnCoalescibleTextEvent then none
  else replaceLast (touches target) (mergeSupersededAgentTurnEvent · event) rows

/-- The event with the ids that the links give it, and the target it renews. -/
def placement (event : AgentTurnEvent) : AgentTurnEvent × Option AgentTurnSnapshotTarget :=
  match agentTurnEventSupersession event with
  | .snapshot (.identity scope identity) => (event, some (.identity scope identity))
  | .snapshot (.subagentIds ids) =>
      if (resolveAmong rows ids).canonical then
        (withAgentTurnSubagentIds event (resolveAmong rows ids).ids, some (.subagentIds (resolveAmong rows ids).ids))
      else (event, none)
  | _ => (event, none)

def placeRow (event : AgentTurnEvent) : List AgentTurnEvent :=
  ((placement rows event).2.bind fun target =>
    supersedeRow rows target (placement rows event).1).getD (rows ++ [(placement rows event).1])

/-- An event on the rows: it joins the last one, renews one or is appended. -/
def liveRow (policy : AgentTurnEventRetentionPolicy) (rows : List AgentTurnEvent)
    (event : AgentTurnEvent) : List AgentTurnEvent :=
  (coalesceIntoLast policy rows event).getD (placeRow rows event)

/-- The row is a running tick of a subagent whose ids the links before it, and
its own, leave as they are. -/
def Settles (row : AgentTurnEvent) : Prop :=
  ∀ ids, agentTurnEventSupersession row = .snapshot (.subagentIds ids) → (resolveAmong (rows ++ [row]) ids).ids = ids

/-- Every row is settled among those before it. -/
def Settled : Prop :=
  ∀ before row after, rows = before ++ row :: after → Settles before row

lemma linkCount_append (rows rows') (toolId taskId : JsString) :
    linkCount (rows ++ rows') toolId taskId = linkCount rows toolId taskId + linkCount rows' toolId taskId :=
  List.countP_append

lemma linkCount_singleton (row) (toolId taskId : JsString) :
    linkCount [row] toolId taskId =
      if agentTurnSubagentAlias row = some (toolId, taskId) then 1 else 0 := by
  simp [linkCount, List.countP_cons]

lemma linkCount_ne_zero_iff {rows} {toolId taskId} :
    linkCount rows toolId taskId ≠ 0 ↔ ∃ row ∈ rows, agentTurnSubagentAlias row = some (toolId, taskId) := by
  rw [← Nat.pos_iff_ne_zero, linkCount, List.countP_pos_iff]
  simp only [decide_eq_true_iff]

lemma representsLinks_insert {aliases}
    {count count' : JsString → JsString → ℕ} (h : RepresentsLinks aliases count)
    (row)
    (hcnt : ∀ toolId taskId, count' toolId taskId = count toolId taskId + linkCount [row] toolId taskId) :
    RepresentsLinks (match agentTurnSubagentAlias row with
      | none => aliases
      | some link => retainAgentTurnSubagentAlias aliases link 1) count' := by
  simp only [linkCount_singleton] at hcnt
  cases hlink : agentTurnSubagentAlias row with
  | none =>
    obtain rfl : count' = count := by
      funext toolId taskId
      rw [hcnt, hlink, if_neg (by simp), Nat.add_zero]
    exact h
  | some link =>
    rw [hlink] at hcnt
    refine h.retain ?_ fun toolId taskId hne => ?_
    · rw [hcnt, if_pos rfl]; push_cast; rfl
    · rw [hcnt, if_neg fun hc => hne (Option.some.inj hc).symm, Nat.add_zero]

lemma representsLinks_aliasesOf : RepresentsLinks (aliasesOf rows) (linkCount rows) := by
  induction rows using List.reverseRecOn with
  | nil => exact representsLinks_create
  | append_singleton rows row ih =>
    rw [aliasesOf, List.foldl_append]
    exact representsLinks_insert ih row fun toolId taskId => linkCount_append rows [row] toolId taskId

lemma resolves_among (ids) : Resolves (linkCount rows) ids (resolveAmong rows ids) :=
  resolves (representsLinks_aliasesOf rows) ids

end CodevoEditor.AgentEvents
