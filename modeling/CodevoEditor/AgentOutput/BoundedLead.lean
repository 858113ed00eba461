/-
# What is kept of a lead

`boundedRemoteAgentTranscriptLead`: the lead is read from its end, and each channel has a budget
of bytes and of lines of its own.
-/

import CodevoEditor.AgentOutput.RemoteSeam

namespace CodevoEditor.AgentOutput

open Js AgentEvents List Option Nat

lemma utf8ByteLength_le_units (text : JsString) : utf8ByteLength text ≤ (text.map unitBytes).sum := by
  induction text with
  | nil => exact le_rfl
  | cons unit rest ih =>
    have hcons := utf8ByteLength_append_le [unit] rest
    rw [utf8ByteLength_singleton, singleton_append] at hcons
    rw [map_cons, sum_cons]
    omega

lemma sum_take_unitsWithin (bytes : ℕ) (units : JsString) :
    ((units.take (unitsWithin bytes units)).map unitBytes).sum ≤ bytes := by
  induction units generalizing bytes with
  | nil => exact zero_le _
  | cons unit rest ih =>
    rw [unitsWithin]
    split_ifs with hfits
    · have hrest := ih (bytes - unitBytes unit)
      rw [take_succ_cons, map_cons, sum_cons]
      omega
    · exact zero_le _

variable {text : JsString}

lemma utf8ByteLength_drop_le {maxBytes start} (h : suffixStartWithin text maxBytes ≤ start) :
    utf8ByteLength (text.drop start) ≤ maxBytes := by
  have hunits := sum_take_unitsWithin maxBytes text.reverse
  rw [take_reverse, map_reverse, sum_reverse] at hunits
  refine (utf8ByteLength_le_units _).trans (le_trans ?_ hunits)
  obtain ⟨more, rfl⟩ := Nat.exists_eq_add_of_le h
  rw [← drop_drop]
  exact (((drop_sublist more _).map unitBytes).sum_le_sum fun _ _ => zero_le _)

lemma indexOfNewline_split {start index} (h : indexOfNewline text start = some index) :
    start ≤ index ∧ ∃ front, text = front ++ newline :: text.drop (index + 1) ∧
      front.length = index ∧ newline ∉ front.drop start := by
  obtain ⟨place, hplc, rfl⟩ := map_eq_some_iff.1 h
  obtain ⟨hspl, hfr⟩ := split_at_newline hplc
  obtain ⟨hlt, -, -⟩ := findIdx?_eq_some_iff_getElem.1 hplc
  rw [length_drop] at hlt
  have hlen : (text.take start).length = start := by
    rw [length_take]
    omega
  refine ⟨le_add_left _ _, text.take start ++ (text.drop start).take place, ?_, ?_, ?_⟩
  · rw [drop_drop] at hspl
    rw [append_assoc, show place + start + 1 = start + (place + 1) by omega, ← hspl, take_append_drop]
  · rw [length_append, hlen, length_take, length_drop]
    omega
  · rw [drop_append, drop_eq_nil_of_le hlen.le, nil_append, hlen, Nat.sub_self,
      drop_zero]
    exact hfr

lemma indexOfNewline_isSome {start} (h : newline ∈ text.drop start) :
    ∃ index, indexOfNewline text start = some index := by
  cases hfind : (text.drop start).findIdx? (· = newline) with
  | none =>
    rw [findIdx?_eq_none_iff] at hfind
    have hno := hfind newline h
    cases hno
  | some place => exact ⟨place + start, by rw [indexOfNewline, hfind, map_some]⟩

lemma throughNewline_spec {lines} (h : lines ≤ text.count newline) :
    (text.drop (throughNewline text lines)).count newline = text.count newline - lines ∧
      (lines ≠ 0 → ∃ front, text = front ++ newline :: text.drop (throughNewline text lines)) := by
  induction lines with
  | zero => exact ⟨rfl, fun hc => absurd rfl hc⟩
  | succ lines ih =>
    obtain ⟨hcnt, -⟩ := ih (by omega)
    have hmem : newline ∈ text.drop (throughNewline text lines) := count_pos_iff.1 (by omega)
    obtain ⟨index, hidx⟩ := indexOfNewline_isSome hmem
    obtain ⟨hle, front, hspl, hlen, hfr⟩ := indexOfNewline_split hidx
    have hthrough : throughNewline text (lines + 1) = index + 1 := by
      rw [throughNewline, hidx, map_some, getD_some]
    rw [hthrough]
    refine ⟨?_, fun _ => ⟨front, hspl⟩⟩
    -- between the two places there is the newline only
    have hbetween : text.drop (throughNewline text lines) =
        front.drop (throughNewline text lines) ++ newline :: text.drop (index + 1) := by
      have hdrop := congrArg (List.drop (throughNewline text lines)) hspl
      rw [drop_append, Nat.sub_eq_zero_of_le (hle.trans_eq hlen.symm), drop_zero] at hdrop
      exact hdrop
    rw [hbetween, count_append, count_eq_zero_of_not_mem hfr, count_cons_self] at hcnt
    omega

/-- What becomes of a text: it is kept, or cut behind a newline within the budget,
or it is not kept, and nothing in front of it. -/
inductive LeadText (budget : LeadBudget) (text : JsString) : LeadBudget → Option JsString → Prop
  | ended (h : budget.start ≠ .whole) : LeadText budget text budget none
  | kept (h : budget.start = .whole) (hlines : text.count newline ≤ budget.lines)
      (hbytes : utf8ByteLength text ≤ budget.bytes) :
      LeadText budget text
        { budget with
          lines := budget.lines - text.count newline
          bytes := budget.bytes - utf8ByteLength text } (some text)
  | resumed (h : budget.start = .whole) (front back : JsString) (htext : text = front ++ newline :: back)
      (hlines : back.count newline ≤ budget.lines) (hbytes : utf8ByteLength back ≤ budget.bytes) :
      LeadText budget text { budget with start := .resumed } (some back)
  | cut (h : budget.start = .whole) : LeadText budget text { budget with start := .cut } none

/-- **A text is cut behind a newline**, and what is behind it is in the budget. -/
theorem resumeOffset_split {budget} {resume}
    (h : resumeOffset text budget = some resume) :
    (∃ front, text = front ++ newline :: text.drop resume) ∧
      (text.drop resume).count newline ≤ budget.lines ∧
      utf8ByteLength (text.drop resume) ≤ budget.bytes := by
  obtain ⟨index, hidx, rfl⟩ := map_eq_some_iff.1 h
  obtain ⟨hle, front, hspl, hlen, -⟩ := indexOfNewline_split hidx
  obtain ⟨hcnt, hthrough⟩ := throughNewline_spec (sub_le ((text.drop (index + 1)).count newline) budget.lines)
  rw [drop_drop] at hcnt hthrough
  dsimp only
  refine ⟨?_, by omega, utf8ByteLength_drop_le (by omega)⟩
  by_cases hnone : (text.drop (index + 1)).count newline - budget.lines = 0
  · rw [hnone, throughNewline, add_zero]
    exact ⟨front, hspl⟩
  · obtain ⟨front', hfront'⟩ := hthrough hnone
    refine ⟨front ++ newline :: front', ?_⟩
    rw [append_assoc, cons_append, ← hfront', ← hspl]

lemma boundedLeadText_cases (budget) (text : JsString) :
    LeadText budget text (boundedLeadText budget text).1 (boundedLeadText budget text).2 := by
  unfold boundedLeadText
  by_cases hst : budget.start = .whole
  · rw [if_neg (not_not_intro hst)]
    by_cases hfits : newlineCount text (budget.lines + 1) ≤ budget.lines ∧ utf8ByteLength text ≤ budget.bytes
    · have hlines : newlineCount text (budget.lines + 1) = text.count newline := by
        have hcnt := hfits.1
        rw [newlineCount] at hcnt ⊢
        omega
      rw [if_pos hfits, hlines]
      exact .kept hst (hlines ▸ hfits.1) hfits.2
    · rw [if_neg hfits]
      cases hresume : resumeOffset text budget with
      | none => exact .cut hst
      | some resume =>
        obtain ⟨⟨front, hfr⟩, hlines, hby⟩ := resumeOffset_split hresume
        exact .resumed hst front _ hfr hlines hby
  · rw [if_pos hst]
    exact .ended hst

def LeadLoop.budget (loop : LeadLoop) : AgentTaskOutputStream → LeadBudget
  | .stdout => loop.stdout
  | .stderr => loop.stderr

def RemoteAgentTranscriptBoundedLead.start (lead : RemoteAgentTranscriptBoundedLead) :
    AgentTaskOutputStream → RemoteAgentTranscriptLeadStart
  | .stdout => lead.stdout
  | .stderr => lead.stderr

/-- An event with a text of its own. -/
def RemoteRunnerEvent.withText (event : RemoteRunnerEvent) (text : JsString) : RemoteRunnerEvent :=
  { event with text := some text }

lemma outputChannel_withText (event) (text : JsString) :
    outputChannel (event.withText text) = outputChannel event := rfl

lemma LeadLoop.step_cases (event) (loop : LeadLoop) :
    (outputChannel event = none ∧ loop.step event = loop) ∨
      ∃ channel text, outputChannel event = some channel ∧
        LeadText (loop.budget channel) (event.text.getD []) ((loop.step event).budget channel) text ∧
        (∀ other, other ≠ channel → (loop.step event).budget other = loop.budget other) ∧
        (loop.step event).kept = (text.map event.withText).toList ++ loop.kept := by
  unfold LeadLoop.step
  cases hchan : outputChannel event with
  | none => exact .inl ⟨rfl, rfl⟩
  | some channel =>
    refine .inr ⟨channel, ?_⟩
    cases channel with
    | stdout =>
      refine ⟨_, rfl, boundedLeadText_cases loop.stdout (event.text.getD []), fun other hoth => ?_, rfl⟩
      cases other with
      | stdout => exact absurd rfl hoth
      | stderr => rfl
    | stderr =>
      refine ⟨_, rfl, boundedLeadText_cases loop.stderr (event.text.getD []), fun other hoth => ?_, rfl⟩
      cases other with
      | stdout => rfl
      | stderr => exact absurd rfl hoth

section Channel

variable {limits : RemoteAgentTranscriptSegmentLimits} {channel : AgentTaskOutputStream}
  {event : RemoteRunnerEvent} {events kept : List RemoteRunnerEvent} {loop : LeadLoop}

lemma channelText_cons_of_ne (h : outputChannel event ≠ some channel) :
    channelText channel (event :: events) = channelText channel events := by
  rw [channelText, flatMap_cons, if_neg h, nil_append, channelText]

lemma channelText_cons_of_eq (h : outputChannel event = some channel) :
    channelText channel (event :: events) = event.text.getD [] ++ channelText channel events := by
  rw [channelText, flatMap_cons, if_pos h, channelText]

/-- The events of a channel, with the text that they have. -/
def channelEvents (channel : AgentTaskOutputStream) (events : List RemoteRunnerEvent) : List RemoteRunnerEvent :=
  (events.filter fun event => outputChannel event = some channel).map fun event =>
    event.withText (event.text.getD [])

lemma channelEvents_cons_of_ne (h : outputChannel event ≠ some channel) :
    channelEvents channel (event :: events) = channelEvents channel events := by
  simp only [channelEvents, filter_cons, h, decide_false, Bool.false_eq_true, if_false]

lemma channelEvents_cons_of_eq (h : outputChannel event = some channel) :
    channelEvents channel (event :: events) =
      event.withText (event.text.getD []) :: channelEvents channel events := by
  simp only [channelEvents, filter_cons, h, decide_true, if_true, map_cons]

/-- What is kept of a channel, of the events that were read. -/
structure LeadLoop.Led (limits : RemoteAgentTranscriptSegmentLimits) (channel : AgentTaskOutputStream)
    (events : List RemoteRunnerEvent) (loop : LeadLoop) : Prop where
  isSuffix : channelText channel loop.kept <:+ channelText channel events
  bytes : utf8ByteLength (channelText channel loop.kept) ≤ limits.maxLeadBytes
  lines : (channelText channel loop.kept).count newline ≤ limits.maxLeadLines
  whole : (loop.budget channel).start = .whole →
    utf8ByteLength (channelText channel loop.kept) + (loop.budget channel).bytes ≤ limits.maxLeadBytes ∧
      (channelText channel loop.kept).count newline + (loop.budget channel).lines ≤ limits.maxLeadLines ∧
      channelEvents channel loop.kept = channelEvents channel events
  resumed : (loop.budget channel).start = .resumed →
    ∃ front, channelText channel events = front ++ newline :: channelText channel loop.kept

lemma channelText_channelEvents (channel) (events) :
    channelText channel (channelEvents channel events) = channelText channel events := by
  induction events with
  | nil => rfl
  | cons event events ih =>
    by_cases hchan : outputChannel event = some channel
    · rw [channelEvents_cons_of_eq hchan, channelText_cons_of_eq hchan,
        channelText_cons_of_eq ((outputChannel_withText event _).trans hchan), ih]
      rfl
    · rw [channelEvents_cons_of_ne hchan, channelText_cons_of_ne hchan, ih]

variable {loop' : LeadLoop}

lemma LeadLoop.Led.skip (h : loop.Led limits channel events)
    (hoth : outputChannel event ≠ some channel)
    (hbudget : loop'.budget channel = loop.budget channel)
    (hkept : loop'.kept = loop.kept ∨ ∃ text, loop'.kept = event.withText text :: loop.kept) :
    loop'.Led limits channel (event :: events) := by
  have hother' text : outputChannel (event.withText text) ≠ some channel := hoth
  have htext : channelText channel loop'.kept = channelText channel loop.kept := by
    rcases hkept with hkept | ⟨text, hkept⟩
    · rw [hkept]
    · rw [hkept, channelText_cons_of_ne (hother' text)]
  have hevs : channelEvents channel loop'.kept = channelEvents channel loop.kept := by
    rcases hkept with hkept | ⟨text, hkept⟩
    · rw [hkept]
    · rw [hkept, channelEvents_cons_of_ne (hother' text)]
  constructor
  · rw [htext, channelText_cons_of_ne hoth]
    exact h.isSuffix
  · rw [htext]
    exact h.bytes
  · rw [htext]
    exact h.lines
  · rw [hbudget, htext, hevs, channelEvents_cons_of_ne hoth]
    exact h.whole
  · rw [hbudget, htext, channelText_cons_of_ne hoth]
    exact h.resumed

lemma LeadLoop.Led.own (h : loop.Led limits channel events)
    (hown : outputChannel event = some channel) {text}
    (htext : LeadText (loop.budget channel) (event.text.getD []) (loop'.budget channel) text)
    (hkept : loop'.kept = (text.map event.withText).toList ++ loop.kept) :
    loop'.Led limits channel (event :: events) := by
  have hsome part (hpart : text = some part) :
      channelText channel loop'.kept = part ++ channelText channel loop.kept := by
    rw [hkept, hpart]
    exact channelText_cons_of_eq hown
  have hnone (hpart : text = none) : channelText channel loop'.kept = channelText channel loop.kept := by
    rw [hkept, hpart]
    rfl
  have hskip : channelText channel loop.kept <:+ channelText channel (event :: events) := by
    exact h.isSuffix.trans (suffix_append _ _)
  generalize hbudget : loop'.budget channel = budget at htext
  cases htext with
  | ended hend =>
    constructor
    · rw [hnone rfl]
      exact hskip
    · rw [hnone rfl]
      exact h.bytes
    · rw [hnone rfl]
      exact h.lines
    · exact fun hwh => absurd (hbudget ▸ hwh) hend
    · intro hresumed
      obtain ⟨front, hfr⟩ := h.resumed (hbudget ▸ hresumed)
      refine ⟨event.text.getD [] ++ front, ?_⟩
      rw [hnone rfl, channelText_cons_of_eq hown, hfr, append_assoc]
  | kept hst hlines hby =>
    obtain ⟨hbytesLeft, hlinesLeft, hevs⟩ := h.whole hst
    have hbytesAll := utf8ByteLength_append_le (event.text.getD []) (channelText channel loop.kept)
    have heventsAll : channelEvents channel loop'.kept = channelEvents channel (event :: events) := by
      have hcons : loop'.kept = event.withText (event.text.getD []) :: loop.kept := hkept
      rw [hcons, channelEvents_cons_of_eq hown,
        channelEvents_cons_of_eq ((outputChannel_withText event _).trans hown), hevs]
      rfl
    constructor
    · have htexts : channelText channel loop.kept = channelText channel events := by
        rw [← channelText_channelEvents, hevs, channelText_channelEvents]
      rw [hsome _ rfl, channelText_cons_of_eq hown, htexts]
    · rw [hsome _ rfl]
      omega
    · rw [hsome _ rfl, count_append]
      omega
    · intro _
      rw [hbudget, hsome _ rfl, count_append]
      refine ⟨?_, ?_, heventsAll⟩
      · change _ + ((loop.budget channel).bytes - utf8ByteLength (event.text.getD [])) ≤ _
        omega
      · change _ + ((loop.budget channel).lines - (event.text.getD []).count newline) ≤ _
        omega
    · intro hresumed
      rw [hbudget] at hresumed
      exact absurd (hst.symm.trans hresumed) nofun
  | resumed hst front back hspl hlines hby =>
    obtain ⟨hbytesLeft, hlinesLeft, hevs⟩ := h.whole hst
    have hbytesAll := utf8ByteLength_append_le back (channelText channel loop.kept)
    have htexts : channelText channel loop.kept = channelText channel events := by
      rw [← channelText_channelEvents, hevs, channelText_channelEvents]
    have hbehind : channelText channel (event :: events) =
        front ++ newline :: (back ++ channelText channel loop.kept) := by
      rw [channelText_cons_of_eq hown, hspl, htexts, append_assoc, cons_append]
    constructor
    · rw [hsome _ rfl, hbehind]
      exact ⟨front ++ [newline], by rw [append_assoc, singleton_append]⟩
    · rw [hsome _ rfl]
      omega
    · rw [hsome _ rfl, count_append]
      omega
    · intro hwh
      rw [hbudget] at hwh
      cases hwh
    · intro _
      exact ⟨front, by rw [hsome _ rfl, hbehind]⟩
  | cut hst =>
    constructor
    · rw [hnone rfl]
      exact hskip
    · rw [hnone rfl]
      exact h.bytes
    · rw [hnone rfl]
      exact h.lines
    · intro hwh
      rw [hbudget] at hwh
      cases hwh
    · intro hresumed
      rw [hbudget] at hresumed
      cases hresumed

end Channel

/-- What is kept are events of the lead, in their order, each with a suffix of
its text. -/
def KeptInOrder (lead kept : List RemoteRunnerEvent) : Prop :=
  ∃ chosen, chosen.Sublist lead ∧
    List.Forall₂ (fun event keptEvent => ∃ text, keptEvent = event.withText text ∧
      text <:+ event.text.getD []) chosen kept

lemma LeadText.isSuffix {budget budget'} {part} (h : LeadText budget text budget' (some part)) : part <:+ text := by
  cases h with
  | kept => exact suffix_rfl
  | resumed hst front back hspl =>
    exact hspl ▸ ⟨front ++ [newline], by rw [append_assoc, singleton_append]⟩

variable (lead : List RemoteRunnerEvent)

lemma foldr_step_keptInOrder {start}
    (hst : start.kept = []) : KeptInOrder lead (lead.foldr LeadLoop.step start).kept := by
  induction lead with
  | nil => exact ⟨[], nil_sublist _, by rw [foldr_nil, hst]; exact .nil⟩
  | cons event lead ih =>
    obtain ⟨chosen, hsublist, hkept⟩ := ih
    rw [foldr_cons]
    rcases LeadLoop.step_cases event (lead.foldr LeadLoop.step start) with
      ⟨-, hstep⟩ | ⟨channel, text, -, htext, -, hstep⟩
    · exact ⟨chosen, hsublist.cons event, by rw [hstep]; exact hkept⟩
    · rw [hstep]
      cases text with
      | none => exact ⟨chosen, hsublist.cons event, hkept⟩
      | some text => exact ⟨event :: chosen, hsublist.cons_cons event, .cons ⟨text, rfl, htext.isSuffix⟩ hkept⟩

variable (limits : RemoteAgentTranscriptSegmentLimits)

lemma foldr_step_led (channel)
    (lead : List RemoteRunnerEvent) {start} (hst : start.Led limits channel []) :
    (lead.foldr LeadLoop.step start).Led limits channel lead := by
  induction lead with
  | nil => exact hst
  | cons event lead ih =>
    rw [foldr_cons]
    rcases LeadLoop.step_cases event (lead.foldr LeadLoop.step start) with
      ⟨hnone, hstep⟩ | ⟨own, text, hown, htext, hoths, hkept⟩
    · rw [hstep]
      exact ih.skip (by rw [hnone]; exact nofun) rfl (.inl rfl)
    · by_cases hchan : own = channel
      · subst hchan
        exact ih.own hown htext hkept
      · refine ih.skip (fun hc => hchan ?_) (hoths channel (.symm hchan)) ?_
        · rw [hown, some_inj] at hc
          exact hc
        · cases text with
          | none => exact .inl hkept
          | some text => exact .inr ⟨text, hkept⟩

lemma boundedLead_led (channel : AgentTaskOutputStream) :
    ∃ loop : LeadLoop, loop.Led limits channel lead ∧
      loop.kept = (boundedRemoteAgentTranscriptLead lead limits).events ∧
      (loop.budget channel).start = (boundedRemoteAgentTranscriptLead lead limits).start channel := by
  have hst : (⟨⟨limits.maxLeadLines, limits.maxLeadBytes, .whole⟩,
      ⟨limits.maxLeadLines, limits.maxLeadBytes, .whole⟩, []⟩ : LeadLoop).Led limits channel [] := by
    refine ⟨suffix_rfl, zero_le _, zero_le _, fun _ => ⟨?_, ?_, rfl⟩, fun hresumed => ?_⟩
    · cases channel <;> exact (zero_add _).le
    · cases channel <;> exact (zero_add _).le
    · cases channel <;> cases hresumed
  exact ⟨_, foldr_step_led limits channel lead hst, rfl, by cases channel <;> rfl⟩

/-- **A bounded lead is a true suffix**: what is kept are events of the lead, in their order and
each with a suffix of its text. -/
theorem boundedLead_keeps :
    KeptInOrder lead (boundedRemoteAgentTranscriptLead lead limits).events ∧
      ∀ channel,
        channelText channel (boundedRemoteAgentTranscriptLead lead limits).events <:+
            channelText channel lead ∧
          utf8ByteLength (channelText channel (boundedRemoteAgentTranscriptLead lead limits).events) ≤
            limits.maxLeadBytes ∧
          (channelText channel (boundedRemoteAgentTranscriptLead lead limits).events).count newline ≤
            limits.maxLeadLines ∧
          ((boundedRemoteAgentTranscriptLead lead limits).start channel = .whole →
            channelEvents channel (boundedRemoteAgentTranscriptLead lead limits).events =
              channelEvents channel lead) ∧
          ((boundedRemoteAgentTranscriptLead lead limits).start channel = .resumed →
            ∃ front, channelText channel lead = front ++ newline ::
              channelText channel (boundedRemoteAgentTranscriptLead lead limits).events) := by
  refine ⟨foldr_step_keptInOrder lead rfl, fun channel => ?_⟩
  obtain ⟨loop, hled, hkept, hstart⟩ := boundedLead_led lead limits channel
  rw [← hkept, ← hstart]
  exact ⟨hled.isSuffix, hled.bytes, hled.lines, fun hwhole => (hled.whole hwhole).2.2, hled.resumed⟩

/-- Each channel has a budget of its own: a byte of each is kept where one is
allowed. -/
theorem boundedLead_budgets_apart :
    ¬ ∀ (lead : List RemoteRunnerEvent) (limits : RemoteAgentTranscriptSegmentLimits),
      utf8ByteLength (channelText .stdout (boundedRemoteAgentTranscriptLead lead limits).events) +
        utf8ByteLength (channelText .stderr (boundedRemoteAgentTranscriptLead lead limits).events) ≤
          limits.maxLeadBytes := by
  intro h
  have htwo := h
    [{ type := .output, channel := some .stdout, text := some (js "a") },
      { type := .output, channel := some .stderr, text := some (js "b") }]
    { maxEvents := 0, maxBytes := 0, maxLines := 0, maxPageBytes := 0, maxLeadLines := 0, maxLeadBytes := 1 }
  revert htwo
  decide +kernel

end CodevoEditor.AgentOutput
