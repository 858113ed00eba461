/-
# The window of a turn's activity

`src/domain/agentTurnActivityWindow.ts`: a window over the log of a turn grows by a page in
front or behind and drops entries at the other end when it is over a cap.
-/

import CodevoEditor.AgentEvents.Merge
import CodevoEditor.TurnLog.Window
import Mathlib.Data.List.Chain

namespace CodevoEditor.Activity

open AgentEvents List
open TurnLog (AgentTurnLogLoss)

def maxAgentTurnActivityWindowEntries : ℕ := 1000
def maxAgentTurnActivityWindowBytes : ℕ := maxAgentEventBytesPerTurn

structure AgentTurnLogEntry where
  seq : ℕ
  event : AgentTurnEvent

inductive AgentTurnLogAnchor
  | tail
  | before (seq : ℕ)
  | after (seq : ℕ)
  | around (seq : ℕ)

structure AgentTurnLogPage where
  entries : List AgentTurnLogEntry
  firstSeq : ℕ
  lastSeq : ℕ
  hasEarlier : Bool
  hasLater : Bool
  loss : AgentTurnLogLoss
  clipped : Bool
  earlierDiscarded : Bool

structure AgentTurnActivityWindow where
  entries : List AgentTurnLogEntry
  bytes : ℕ
  hasEarlier : Bool
  hasLater : Bool
  gap : Bool
  loss : AgentTurnLogLoss
  clipped : Bool
  earlierDiscarded : Bool

inductive AgentTurnActivityRejection
  | oversized
  | unordered
  | inconsistent
  | notAdvancing

def ascending (entries : List AgentTurnLogEntry) : Bool :=
  entries.IsChain fun previous current => previous.seq < current.seq

def emptyPageRejection (page : AgentTurnLogPage) :
    AgentTurnLogAnchor → Option AgentTurnActivityRejection
  | .before _ => if page.hasEarlier then some .notAdvancing else none
  | .after _ => if page.hasLater then some .notAdvancing else none
  | _ => none

/-- `AGENT_TURN_LOG_LIMITS.pageEvents` is 200. -/
def agentTurnActivityPageRejection (page : AgentTurnLogPage) (anchor : AgentTurnLogAnchor) :
    Option AgentTurnActivityRejection :=
  if 200 < page.entries.length then some .oversized
  else if ¬ ascending page.entries then some .unordered
  else match page.entries.head?, page.entries.getLast? with
    | some first, some last =>
      if first.seq ≠ page.firstSeq ∨ last.seq ≠ page.lastSeq then some .inconsistent
      else match anchor with
        | .before seq => if seq ≤ page.lastSeq then some .notAdvancing else none
        | .after seq => if page.firstSeq ≤ seq then some .notAdvancing else none
        | _ => none
    | _, _ => emptyPageRejection page anchor

def entriesBytes (entries : List AgentTurnLogEntry) : ℕ :=
  (entries.map fun entry => agentTurnEventUtf8Bytes entry.event).sum

def overCap (count bytes : ℕ) : Bool :=
  maxAgentTurnActivityWindowEntries < count || maxAgentTurnActivityWindowBytes < bytes

/-- The loop of `evictEarliest`, and from the other end that of `evictNewest`. -/
def evict : List AgentTurnLogEntry → ℕ → List AgentTurnLogEntry × ℕ
  | [], bytes => ([], bytes)
  | entry :: rest, bytes =>
    if rest ≠ [] ∧ overCap (rest.length + 1) bytes then
      evict rest (bytes - agentTurnEventUtf8Bytes entry.event)
    else (entry :: rest, bytes)

namespace AgentTurnActivityWindow

def evictNewest (window : AgentTurnActivityWindow) : AgentTurnActivityWindow :=
  let kept := evict window.entries.reverse window.bytes
  if kept.1.length = window.entries.length then window
  else { window with entries := kept.1.reverse, bytes := kept.2, hasLater := true }

def evictEarliest (window : AgentTurnActivityWindow) : AgentTurnActivityWindow :=
  let kept := evict window.entries window.bytes
  if kept.1.length = window.entries.length then window
  else { window with entries := kept.1, bytes := kept.2, hasEarlier := true }

end AgentTurnActivityWindow

open AgentTurnActivityWindow

def openAgentTurnActivityWindow (page : AgentTurnLogPage) : AgentTurnActivityWindow :=
  evictNewest { page with bytes := entriesBytes page.entries, gap := false }

def agentTurnLogLossSeverity : AgentTurnLogLoss → ℕ
  | .none => 0
  | .legacyWindow => 1
  | .backgroundBuffer => 2
  | .supervisorGap => 3
  | .writeFailure => 4
  | .turnCeiling => 5
  | .diskBudget _ => 6
  | .unreadable => 7

def mergeAgentTurnLogLoss (current next : AgentTurnLogLoss) : AgentTurnLogLoss :=
  if agentTurnLogLossSeverity current < agentTurnLogLossSeverity next then next else current

def prependAgentTurnActivityPage (window : AgentTurnActivityWindow) (page : AgentTurnLogPage) :
    AgentTurnActivityWindow :=
  let joinedGap := window.entries.head?.any fun first =>
    page.entries ≠ [] && page.lastSeq + 1 ≠ first.seq
  evictNewest
    { entries := page.entries ++ window.entries
      bytes := window.bytes + entriesBytes page.entries
      hasEarlier := page.hasEarlier
      hasLater := window.hasLater
      gap := window.gap || joinedGap
      loss := mergeAgentTurnLogLoss window.loss page.loss
      clipped := window.clipped || page.clipped
      earlierDiscarded := window.earlierDiscarded || page.earlierDiscarded }

def appendAgentTurnActivityPage (window : AgentTurnActivityWindow) (page : AgentTurnLogPage) :
    AgentTurnActivityWindow :=
  let joinedGap := window.entries.getLast?.any fun last =>
    page.entries ≠ [] && page.firstSeq ≠ last.seq + 1
  evictEarliest
    { entries := window.entries ++ page.entries
      bytes := window.bytes + entriesBytes page.entries
      hasEarlier := window.hasEarlier
      hasLater := page.hasLater
      gap := window.gap || joinedGap
      loss := mergeAgentTurnLogLoss window.loss page.loss
      clipped := window.clipped || page.clipped
      earlierDiscarded := window.earlierDiscarded || page.earlierDiscarded }

/-- The windows that pages reach, each accepted for the end of the window that it is read at. -/
inductive Reaches (anchor : AgentTurnLogAnchor) :
    List (AgentTurnLogAnchor × AgentTurnLogPage) → AgentTurnActivityWindow → Prop
  | opened {page} (hok : agentTurnActivityPageRejection page anchor = none) :
      Reaches anchor [(anchor, page)] (openAgentTurnActivityWindow page)
  | prepended {pages window first page} (h : Reaches anchor pages window)
      (hfirst : window.entries.head? = some first)
      (hok : agentTurnActivityPageRejection page (.before first.seq) = none) :
      Reaches anchor ((.before first.seq, page) :: pages) (prependAgentTurnActivityPage window page)
  | appended {pages window last page} (h : Reaches anchor pages window)
      (hlast : window.entries.getLast? = some last)
      (hok : agentTurnActivityPageRejection page (.after last.seq) = none) :
      Reaches anchor ((.after last.seq, page) :: pages) (appendAgentTurnActivityPage window page)

/-- Whether an event is before what was read at an anchor. -/
def Precedes (anchor : AgentTurnLogAnchor) (entries : List AgentTurnLogEntry) (seq : ℕ) : Prop :=
  (∀ entry ∈ entries, seq < entry.seq) ∧ (entries = [] → match anchor with
    | .tail => True
    | .before other | .around other => seq < other
    | .after other => seq ≤ other)

/-- Whether an event is after what was read at an anchor. -/
def Succeeds (anchor : AgentTurnLogAnchor) (entries : List AgentTurnLogEntry) (seq : ℕ) : Prop :=
  (∀ entry ∈ entries, entry.seq < seq) ∧ (entries = [] → match anchor with
    | .tail => False
    | .before other => other ≤ seq
    | .after other | .around other => other < seq)

/-- An event of the log inside what was read that was not read. -/
def Missing (log : ℕ → Option AgentTurnEvent) (entries : List AgentTurnLogEntry) (seq : ℕ) : Prop :=
  (log seq).isSome ∧ (∃ entry ∈ entries, entry.seq < seq) ∧ (∃ entry ∈ entries, seq < entry.seq) ∧
    ∀ entry ∈ entries, entry.seq ≠ seq

/-- What holds of a part of the log that was read at an anchor. -/
structure Faithful (log : ℕ → Option AgentTurnEvent) (anchor : AgentTurnLogAnchor)
    (entries : List AgentTurnLogEntry) (hasEarlier hasLater : Bool) (marked : Prop) : Prop where
  stored : ∀ entry ∈ entries, log entry.seq = some entry.event
  earlier : hasEarlier ↔ ∃ seq, (log seq).isSome ∧ Precedes anchor entries seq
  later : hasLater ↔ ∃ seq, (log seq).isSome ∧ Succeeds anchor entries seq
  missing : ∀ seq, Missing log entries seq → marked

def AgentTurnLogPage.ReadsLog (log : ℕ → Option AgentTurnEvent) (anchor : AgentTurnLogAnchor)
    (page : AgentTurnLogPage) : Prop :=
  Faithful log anchor page.entries page.hasEarlier page.hasLater (page.loss ≠ .none)

def Ordered (entries : List AgentTurnLogEntry) : Prop :=
  entries.Pairwise fun earlier later => earlier.seq < later.seq

lemma evict_spec (entries : List AgentTurnLogEntry) :
    ∃ dropped kept, evict entries (entriesBytes entries) = (kept, entriesBytes kept) ∧
      entries = dropped ++ kept ∧ (kept = [] → entries = []) ∧
      (overCap kept.length (entriesBytes kept) = false ∨ kept.length = 1) := by
  induction entries with
  | nil => exact ⟨[], [], rfl, rfl, id, .inl rfl⟩
  | cons entry rest ih =>
    have hby : entriesBytes (entry :: rest) - agentTurnEventUtf8Bytes entry.event = entriesBytes rest := by
      simp [entriesBytes]
    rw [evict, hby]
    split_ifs with hover
    · obtain ⟨dropped, kept, hkept, rfl, hnil, hcap⟩ := ih
      exact ⟨entry :: dropped, kept, hkept, rfl, fun h => absurd (hnil h) hover.1, hcap⟩
    · refine ⟨[], entry :: rest, rfl, rfl, nofun, ?_⟩
      rcases eq_or_ne rest [] with rfl | hne
      · exact .inr rfl
      · exact .inl (Bool.eq_false_iff.2 fun hcap => hover ⟨hne, hcap⟩)

/-- What an eviction may do to a window. -/
structure Evicts (window next : AgentTurnActivityWindow) (front back : List AgentTurnLogEntry) : Prop where
  entries : window.entries = front ++ next.entries ++ back
  bytes : next.bytes = entriesBytes next.entries
  caps : overCap next.entries.length next.bytes = false ∨ next.entries.length = 1
  nil : next.entries = [] → window.entries = []
  hasEarlier : next.hasEarlier = (window.hasEarlier || front ≠ [])
  hasLater : next.hasLater = (window.hasLater || back ≠ [])
  gap : next.gap = window.gap

variable {window : AgentTurnActivityWindow}

lemma evictEarliest_spec (h : window.bytes = entriesBytes window.entries) :
    ∃ front, Evicts window window.evictEarliest front [] := by
  obtain ⟨dropped, kept, hkept, hents, hnil, hcap⟩ := evict_spec window.entries
  refine ⟨dropped, ?_⟩
  unfold evictEarliest
  rw [h, hkept]
  dsimp only
  split_ifs with hlen
  · obtain rfl : dropped = [] := by simpa [hents] using hlen
    rw [nil_append] at hents
    exact ⟨by simp, h, by rwa [h, hents], id, by simp, by simp, rfl⟩
  · have hne : dropped ≠ [] := by
      rintro rfl
      exact hlen (by rw [hents, nil_append])
    exact ⟨by simpa using hents, rfl, hcap, hnil, by simp [hne], by simp, rfl⟩

lemma evictNewest_spec (h : window.bytes = entriesBytes window.entries) :
    ∃ back, Evicts window window.evictNewest [] back := by
  obtain ⟨dropped, kept, hkept, hents, hnil, hcap⟩ := evict_spec window.entries.reverse
  have hby (entries : List AgentTurnLogEntry) : entriesBytes entries.reverse = entriesBytes entries := by
    unfold entriesBytes
    rw [map_reverse, sum_reverse]
  rw [reverse_eq_iff, reverse_append] at hents
  refine ⟨dropped.reverse, ?_⟩
  unfold evictNewest
  rw [h, ← hby, hkept]
  dsimp only
  split_ifs with hlen
  · obtain rfl : dropped = [] := by simpa [hents] using hlen
    rw [reverse_nil, append_nil] at hents
    exact ⟨by simp, h, by rwa [h, hents, hby, length_reverse], id, by simp, by simp, rfl⟩
  · have hne : dropped ≠ [] := by
      rintro rfl
      exact hlen (by rw [hents, reverse_nil, append_nil, length_reverse])
    exact ⟨by simpa using hents, (hby kept).symm, by rwa [length_reverse], fun h => by simp_all,
      by simp, by simp [hne], rfl⟩

variable {log : ℕ → Option AgentTurnEvent} {anchor : AgentTurnLogAnchor}
  {hasEarlier hasLater : Bool} {marked : Prop}

lemma Faithful.mono {marked' : Prop} {entries} (h : Faithful log anchor entries hasEarlier hasLater marked)
    (hmark : marked → marked') : Faithful log anchor entries hasEarlier hasLater marked' :=
  ⟨h.stored, h.earlier, h.later, fun seq hmiss => hmark (h.missing seq hmiss)⟩

lemma Faithful.middle {front kept back}
    (h : Faithful log anchor (front ++ kept ++ back) hasEarlier hasLater marked)
    (hord : Ordered (front ++ kept ++ back)) (hnil : kept = [] → front ++ kept ++ back = []) :
    Faithful log anchor kept (hasEarlier || front ≠ []) (hasLater || back ≠ []) marked := by
  obtain ⟨hfr, -, hback⟩ := pairwise_append.1 hord
  obtain ⟨-, -, hfr⟩ := pairwise_append.1 hfr
  rcases eq_or_ne kept [] with rfl | hkept
  · obtain ⟨⟨rfl, -⟩, rfl⟩ := by simpa using hnil rfl
    simpa using h
  obtain ⟨some', hsome⟩ := exists_mem_of_ne_nil kept hkept
  refine ⟨fun entry hmem => h.stored entry (by simp [hmem]), ?_, ?_, ?_⟩
  · rcases front with _ | ⟨first, rest⟩
    · refine (by simpa using h.earlier : _ ↔ _).trans (exists_congr fun seq => and_congr_right fun _ => ?_)
      unfold Precedes
      grind
    · refine iff_of_true (by simp) ⟨first.seq, by simp [h.stored first (by simp)], ?_⟩
      unfold Precedes
      grind
  · rcases back with _ | ⟨last, rest⟩
    · refine (by simpa using h.later : _ ↔ _).trans (exists_congr fun seq => and_congr_right fun _ => ?_)
      unfold Succeeds
      grind
    · refine iff_of_true (by simp) ⟨last.seq, by simp [h.stored last (by simp)], ?_⟩
      unfold Succeeds
      grind
  · rintro seq ⟨hlog, ⟨below, hbelow, hlt⟩, ⟨above, habove, hgt⟩, hnot⟩
    refine h.missing seq ⟨hlog, ⟨below, by simp [hbelow], hlt⟩, ⟨above, by simp [habove], hgt⟩, ?_⟩
    intro entry hmem
    rcases mem_append.1 hmem with hmem | hmem
    · rcases mem_append.1 hmem with hmem | hmem
      · exact ((hfr entry hmem below hbelow).trans hlt).ne
      · exact hnot entry hmem
    · exact (hgt.trans (hback above (mem_append_right _ habove) entry hmem)).ne'

lemma Faithful.join {a b c : AgentTurnLogAnchor} {left right} {earlier later : Bool}
    (hleft : Faithful log a left hasEarlier later marked)
    (hrt : Faithful log b right earlier hasLater marked) (hord : Ordered (left ++ right))
    (hgap : ∀ last ∈ left.getLast?, ∀ first ∈ right.head?, last.seq + 1 = first.seq ∨ marked)
    (hnil : left = [] → ∀ seq, Precedes a [] seq ↔ Precedes c right seq)
    (hnil' : right = [] → ∀ seq, Succeeds b [] seq ↔ Succeeds c left seq) :
    Faithful log c (left ++ right) hasEarlier hasLater marked := by
  obtain ⟨hleftOrdered, hrightOrdered, hlt⟩ := pairwise_append.1 hord
  refine ⟨forall_mem_append.2 ⟨hleft.stored, hrt.stored⟩, hleft.earlier.trans (exists_congr fun seq =>
    and_congr_right fun _ => ?_), hrt.later.trans (exists_congr fun seq => and_congr_right fun _ => ?_), ?_⟩
  · rcases eq_or_ne left [] with rfl | hne
    · exact hnil rfl seq
    · obtain ⟨first, hfst⟩ := exists_mem_of_ne_nil left hne
      unfold Precedes
      grind [append_eq_nil_iff]
  · rcases eq_or_ne right [] with rfl | hne
    · rw [append_nil]
      exact hnil' rfl seq
    · obtain ⟨last, hlast⟩ := exists_mem_of_ne_nil right hne
      unfold Succeeds
      grind [append_eq_nil_iff]
  · rintro seq ⟨hlog, ⟨below, hbelow, hlt₁⟩, ⟨above, habove, hlt₂⟩, hnot⟩
    obtain ⟨hnotLeft, hnotRight⟩ := forall_mem_append.1 hnot
    by_cases hinLeft : ∃ entry ∈ left, seq < entry.seq
    · obtain ⟨above, habove, hlt₂⟩ := hinLeft
      exact hleft.missing seq ⟨hlog, ⟨below, by grind, hlt₁⟩, ⟨above, habove, hlt₂⟩, hnotLeft⟩
    by_cases hinRight : ∃ entry ∈ right, entry.seq < seq
    · obtain ⟨below, hbelow, hlt₁⟩ := hinRight
      exact hrt.missing seq ⟨hlog, ⟨below, hbelow, hlt₁⟩, ⟨above, by grind, hlt₂⟩, hnotRight⟩
    have hbelow : below ∈ left := by grind
    have habove : above ∈ right := by grind
    have hne := ne_nil_of_mem hbelow
    have hne' := ne_nil_of_mem habove
    have hlast := getLast_mem hne
    have hfst := head_mem hne'
    refine (hgap _ (getLast?_eq_some_getLast hne) _ (head?_eq_some_head hne')).resolve_left fun hnext => ?_
    grind

/-- What holds of a window whatever log its pages are of. -/
structure AgentTurnActivityWindow.Ok (window : AgentTurnActivityWindow) : Prop where
  ordered : Ordered window.entries
  bytes : window.bytes = entriesBytes window.entries
  caps : overCap window.entries.length window.bytes = false ∨ window.entries.length = 1

/-- Some page reported a loss. -/
def Lossy (pages : List (AgentTurnLogAnchor × AgentTurnLogPage)) : Prop :=
  ∃ page ∈ pages, page.2.loss ≠ .none

lemma accepted_spec {page} (h : agentTurnActivityPageRejection page anchor = none) :
    Ordered page.entries ∧
      (∀ first ∈ page.entries.head?, first.seq = page.firstSeq ∧ ∀ seq, anchor = .after seq → seq < first.seq) ∧
      ∀ last ∈ page.entries.getLast?, last.seq = page.lastSeq ∧ ∀ seq, anchor = .before seq → last.seq < seq := by
  unfold agentTurnActivityPageRejection ascending at h
  split_ifs at h with hover hord
  refine ⟨isChain_iff_pairwise.1 (of_decide_eq_true hord), ?_⟩
  rcases page.entries.eq_nil_or_concat with hnil | ⟨init, final, hconcat⟩
  · simp [hnil]
  grind

lemma Ordered.append {left right} (hleft : Ordered left) (hrt : Ordered right)
    (h : ∀ last ∈ left.getLast?, ∀ first ∈ right.head?, last.seq < first.seq) :
    Ordered (left ++ right) :=
  isChain_iff_pairwise.1 (isChain_append.2 ⟨isChain_iff_pairwise.2 hleft, isChain_iff_pairwise.2 hrt, h⟩)

lemma entriesBytes_append (left right : List AgentTurnLogEntry) :
    entriesBytes (left ++ right) = entriesBytes left + entriesBytes right := by
  unfold entriesBytes
  rw [map_append, sum_append]

lemma Evicts.ok {next front back} (h : Evicts window next front back) (hord : Ordered window.entries) :
    next.Ok := by
  rw [h.entries] at hord
  exact ⟨(pairwise_append.1 (pairwise_append.1 hord).1).2.1, h.bytes, h.caps⟩

lemma Evicts.faithful {next front back} (h : Evicts window next front back)
    (hord : Ordered window.entries)
    (hfaithful : Faithful log anchor window.entries window.hasEarlier window.hasLater marked) :
    Faithful log anchor next.entries next.hasEarlier next.hasLater marked := by
  rw [h.hasEarlier, h.hasLater]
  exact .middle (h.entries ▸ hfaithful) (h.entries ▸ hord) fun hnil => h.entries ▸ h.nil hnil

/-- **The window never hides a hole.** -/
theorem window_faithful {pages} (h : Reaches anchor pages window) :
    window.Ok ∧ ∀ log, (∀ page ∈ pages, page.2.ReadsLog log page.1) →
      Faithful log anchor window.entries window.hasEarlier window.hasLater (window.gap ∨ Lossy pages) := by
  induction h with
  | @opened page hok =>
    obtain ⟨hord, -⟩ := accepted_spec hok
    obtain ⟨back, hevicts⟩ : ∃ back, Evicts _ (openAgentTurnActivityWindow page) [] back := evictNewest_spec rfl
    refine ⟨hevicts.ok hord, fun log hlog => hevicts.faithful hord ?_⟩
    exact (hlog (anchor, page) (mem_singleton_self _)).mono fun hloss => .inr ⟨_, mem_singleton_self _, hloss⟩
  | @prepended pages window first page _ hfirst hok ih =>
    obtain ⟨hord, hpageFirst, hpageLast⟩ := accepted_spec hok
    obtain ⟨hwin, hlogs⟩ := ih
    have hall : Ordered (page.entries ++ window.entries) :=
      hord.append hwin.ordered fun last hlast other hother => by
        obtain rfl := Option.some.inj (hfirst.symm.trans hother)
        exact (hpageLast last hlast).2 _ rfl
    obtain ⟨back, hevicts⟩ : ∃ back, Evicts _ (prependAgentTurnActivityPage window page) [] back :=
      evictNewest_spec (by rw [entriesBytes_append, hwin.bytes, Nat.add_comm])
    refine ⟨hevicts.ok hall, fun log hlog => ?_⟩
    obtain ⟨hpage, hpages⟩ := forall_mem_cons.1 hlog
    have hold := hlogs log hpages
    refine hevicts.faithful hall (.join (hpage.mono fun hloss => .inr ⟨_, mem_cons_self, hloss⟩)
      (hold.mono ?_) hall ?_ ?_ ?_)
    · rw [hevicts.gap]
      exact Or.imp (by simp +contextual) fun ⟨page, hmem, hloss⟩ => ⟨page, mem_cons_of_mem _ hmem, hloss⟩
    · intro last hlast other hother
      obtain rfl := Option.some.inj (hfirst.symm.trans hother)
      rw [hevicts.gap, hfirst, ← (hpageLast last hlast).1]
      grind
    · intro _ seq
      obtain ⟨rest, hrest⟩ := head?_eq_some_iff.1 hfirst
      obtain ⟨hlt, -⟩ := pairwise_cons.1 (hrest ▸ hwin.ordered)
      unfold Precedes
      grind
    · exact fun hnil => absurd (hnil ▸ hfirst) nofun
  | @appended pages window last page _ hlast hok ih =>
    obtain ⟨hord, hpageFirst, hpageLast⟩ := accepted_spec hok
    obtain ⟨hwin, hlogs⟩ := ih
    have hall : Ordered (window.entries ++ page.entries) :=
      hwin.ordered.append hord fun other hother first hfirst => by
        obtain rfl := Option.some.inj (hlast.symm.trans hother)
        exact (hpageFirst first hfirst).2 _ rfl
    obtain ⟨front, hevicts⟩ : ∃ front, Evicts _ (appendAgentTurnActivityPage window page) front [] :=
      evictEarliest_spec (by rw [entriesBytes_append, hwin.bytes])
    refine ⟨hevicts.ok hall, fun log hlog => ?_⟩
    obtain ⟨hpage, hpages⟩ := forall_mem_cons.1 hlog
    have hold := hlogs log hpages
    refine hevicts.faithful hall (.join (hold.mono ?_)
      (hpage.mono fun hloss => .inr ⟨_, mem_cons_self, hloss⟩) hall ?_ ?_ ?_)
    · rw [hevicts.gap]
      exact Or.imp (by simp +contextual) fun ⟨page, hmem, hloss⟩ => ⟨page, mem_cons_of_mem _ hmem, hloss⟩
    · intro other hother first hfirst
      obtain rfl := Option.some.inj (hlast.symm.trans hother)
      rw [hevicts.gap, hlast, ← (hpageFirst first hfirst).1]
      grind
    · exact fun hnil => absurd (hnil ▸ hlast) nofun
    · intro _ seq
      obtain ⟨rest, hrest⟩ := getLast?_eq_some_iff.1 hlast
      obtain ⟨-, -, hlt⟩ := pairwise_append.1 (hrest ▸ hwin.ordered)
      have hle (other) (hother : other ∈ rest) := hlt other hother last (mem_singleton_self _)
      unfold Succeeds
      grind

def samplePage (seq : ℕ) : AgentTurnLogPage :=
  ⟨[⟨seq, .error []⟩], seq, seq, seq ≠ 1, false, .none, false, false⟩

lemma window_faithful_sample :
    (prependAgentTurnActivityPage (openAgentTurnActivityWindow (samplePage 2)) (samplePage 1)).Ok :=
  (window_faithful (.prepended (@Reaches.opened .tail _ rfl) rfl rfl)).1

end CodevoEditor.Activity
