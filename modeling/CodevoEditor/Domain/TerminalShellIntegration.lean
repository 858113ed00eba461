/-
# Shell integration in any chunks

`src/domain/terminalShellIntegration.ts`: a scanner takes the OSC sequences out of the output of
a terminal and keeps the one that is not finished for the next chunk.
-/

import CodevoEditor.Js.Text

namespace CodevoEditor.Terminal

open Js List

def terminalShellIntegrationBufferLimit : ℕ := 4096

inductive TerminalShellIntegrationEvent
  | promptStart
  | commandStart
  | preExec
  | commandEnd (exitCode : Option ℕ)
  | cwd (cwd : JsString)

structure Url where
  protocol : JsString
  pathname : JsString

/-- What the platform does: `new URL` and `decodeURIComponent`, `none` where they throw. -/
structure Platform where
  url : JsString → Option Url
  decodeURIComponent : JsString → Option JsString

def esc : UInt16 := 0x1b

def parseExitCode (value : JsString) : Option ℕ :=
  if value ≠ [] ∧ value.all fun unit => 48 ≤ unit && unit ≤ 57 then
    let exitCode := value.foldl (fun code unit => code * 10 + (unit.toNat - 48)) 0
    if exitCode < 2 ^ 53 then some exitCode else none
  else none

variable (platform : Platform)

def Platform.parseCwd (value : JsString) : Option TerminalShellIntegrationEvent := do
  let url ← platform.url value
  if url.protocol ≠ js "file:" then none
  else return .cwd (← platform.decodeURIComponent url.pathname)

def Platform.parsePayload (payload : JsString) : Option TerminalShellIntegrationEvent :=
  if payload = js "133;A" then some .promptStart
  else if payload = js "133;B" then some .commandStart
  else if payload = js "133;C" then some .preExec
  else if js "133;D;" <+: payload then some (.commandEnd (parseExitCode (payload.drop 6)))
  else if ¬ js "7;" <+: payload then none
  else platform.parseCwd (payload.drop 2)

/-- What comes after the first introducer. -/
def afterIntroducer : JsString → Option JsString
  | unit :: next :: rest =>
    if unit = esc ∧ next = 0x5d then some rest else afterIntroducer (next :: rest)
  | _ => none

/-- `findTerminator`: the payload in front of the terminator, and what comes after it. -/
def findTerminator : JsString → Option (JsString × JsString)
  | [] => none
  | unit :: rest =>
    if unit = 7 then some ([], rest)
    else if unit = esc ∧ rest.head? = some 0x5c then some ([], rest.tail)
    else (findTerminator rest).map fun found => (unit :: found.1, found.2)

/-- The first OSC sequence: what comes after its introducer, and its terminator if it has one. -/
def nextSequence (text : JsString) : Option (JsString × Option (JsString × JsString)) :=
  (afterIntroducer text).map fun body => (body, findTerminator body)

lemma afterIntroducer_length {text body} (h : afterIntroducer text = some body) : body.length < text.length := by
  fun_induction afterIntroducer text <;> grind

lemma findTerminator_length {text found} (h : findTerminator text = some found) : found.2.length < text.length := by
  fun_induction findTerminator text generalizing found <;> grind [Option.map_eq_some_iff]

lemma nextSequence_length {text body found} (h : nextSequence text = some (body, some found)) :
    found.2.length < text.length := by
  obtain ⟨body, hbody, heq⟩ := Option.map_eq_some_iff.1 h
  exact (findTerminator_length (Prod.mk.inj heq).2).trans (afterIntroducer_length hbody)

/-- What is kept of a text without an introducer. -/
def kept (text : JsString) : JsString := if text.getLast? = some esc then [esc] else []

/-- The loop of `feed`, over what is left of the buffer: the events and the new buffer. -/
def scan (buffer : JsString) : List TerminalShellIntegrationEvent × JsString :=
  match h : nextSequence buffer with
  | none => ([], kept buffer)
  | some (body, none) =>
    ([], if terminalShellIntegrationBufferLimit < body.length + 2 then [] else esc :: 0x5d :: body)
  | some (_, some (payload, after)) =>
    have := nextSequence_length h
    ((platform.parsePayload payload).toList ++ (scan after).1, (scan after).2)
termination_by buffer.length

def feed (buffer chunk : JsString) : List TerminalShellIntegrationEvent × JsString :=
  scan platform (buffer ++ chunk)

/-- Chunk after chunk. -/
def feedAll (buffer : JsString) : List JsString → List TerminalShellIntegrationEvent × JsString
  | [] => ([], buffer)
  | chunk :: chunks =>
    let fed := feed platform buffer chunk
    let rest := feedAll fed.2 chunks
    (fed.1 ++ rest.1, rest.2)

/-- Every OSC sequence of an output fits the buffer, through its terminator or the end. -/
inductive Within : JsString → Prop
  | plain {text} (h : nextSequence text = none) : Within text
  | pending {text body} (h : nextSequence text = some (body, none))
      (hfits : body.length + 2 ≤ terminalShellIntegrationBufferLimit) : Within text
  | terminated {text body payload after} (h : nextSequence text = some (body, some (payload, after)))
      (hfits : body.length + 2 - after.length ≤ terminalShellIntegrationBufferLimit)
      (hafter : Within after) : Within text

variable {platform}

variable {text body : JsString}

lemma afterIntroducer_append (h : afterIntroducer text = some body) (more : JsString) :
    afterIntroducer (text ++ more) = some (body ++ more) := by
  fun_induction afterIntroducer text <;> simp_all [afterIntroducer]

lemma afterIntroducer_kept (h : afterIntroducer text = none) (more : JsString) :
    afterIntroducer (text ++ more) = afterIntroducer (kept text ++ more) := by
  fun_induction afterIntroducer text with
  | case1 => cases h
  | case2 unit next rest hst ih =>
    rw [cons_append, cons_append, afterIntroducer, if_neg hst, ← cons_append, ih h, kept, kept, getLast?_cons_cons]
  | case3 text hsht =>
    rcases text with _ | ⟨unit, _ | ⟨next, rest⟩⟩
    · rfl
    · by_cases hesc : unit = esc
      · rw [hesc]
        rfl
      · rw [kept, if_neg (by simpa), cons_append]
        cases more with
        | nil => rfl
        | cons => exact if_neg fun hst => hesc hst.1
    · exact absurd rfl (hsht unit next rest)

lemma findTerminator_append {found} (h : findTerminator text = some found) (more : JsString) :
    findTerminator (text ++ more) = some (found.1, found.2 ++ more) := by
  fun_induction findTerminator text generalizing found with
  | case1 => cases h
  | case2 => cases h; simp [findTerminator]
  | case3 unit rest hbel hend => cases h; cases rest <;> simp_all [findTerminator]
  | case4 unit rest hbel hend ih =>
    obtain ⟨found, hget, rfl⟩ := Option.map_eq_some_iff.1 h
    cases rest with
    | nil => cases hget
    | cons next rest =>
      rw [cons_append, findTerminator, if_neg hbel]
      refine (if_neg hend).trans ?_
      rw [ih hget, Option.map_some]

lemma findTerminator_of_none (h : findTerminator text = none) {more found}
    (hmore : findTerminator (text ++ more) = some found) : found.2.length ≤ more.length := by
  fun_induction findTerminator text generalizing found with
  | case1 => exact (findTerminator_length hmore).le
  | case2 | case3 => cases h
  | case4 unit rest hbel hend ih =>
    rw [cons_append, findTerminator, if_neg hbel] at hmore
    cases rest with
    | nil =>
      split_ifs at hmore
      · cases hmore
        simp
      · obtain ⟨found, hget, rfl⟩ := Option.map_eq_some_iff.1 hmore
        exact (findTerminator_length hget).le
    | cons =>
      obtain ⟨found, hget, rfl⟩ := Option.map_eq_some_iff.1 ((if_neg hend).symm.trans hmore)
      exact (ih (Option.map_eq_none_iff.1 h) hget :)

lemma kept_append (text more : JsString) : kept (text ++ more) = kept (kept text ++ more) := by
  unfold kept
  rw [getLast?_append, getLast?_append]
  cases more.getLast? with
  | none => split_ifs <;> simp_all
  | some => rfl

lemma nextSequence_append {found} (h : nextSequence text = some (body, found)) (more : JsString) :
    found = findTerminator body ∧
      nextSequence (text ++ more) = some (body ++ more, findTerminator (body ++ more)) := by
  obtain ⟨body, hbody, heq⟩ := Option.map_eq_some_iff.1 h
  obtain ⟨rfl, rfl⟩ := Prod.mk.inj heq
  exact ⟨rfl, congrArg _ (afterIntroducer_append hbody more)⟩

variable {payload after : JsString}

lemma scan_plain (h : nextSequence text = none) : scan platform text = ([], kept text) := by
  rw [scan]
  split <;> simp_all

lemma scan_pending (h : nextSequence text = some (body, none)) :
    scan platform text =
      ([], if terminalShellIntegrationBufferLimit < body.length + 2 then [] else esc :: 0x5d :: body) := by
  rw [scan]
  split <;> simp_all

lemma scan_terminated (h : nextSequence text = some (body, some (payload, after))) :
    scan platform text =
      ((platform.parsePayload payload).toList ++ (scan platform after).1, (scan platform after).2) := by
  rw [scan]
  split <;> simp_all

lemma scan_congr {other} (h : nextSequence text = nextSequence other)
    (hkept : nextSequence text = none → kept text = kept other) :
    scan platform text = scan platform other := by
  rcases hnext : nextSequence text with _ | ⟨sequence, _ | ⟨payload, after⟩⟩
  · rw [scan_plain hnext, scan_plain (h ▸ hnext), hkept hnext]
  · rw [scan_pending hnext, scan_pending (h ▸ hnext)]
  · exact (scan_terminated hnext).trans (scan_terminated (h ▸ hnext)).symm

lemma Within.congr {other} (h : Within text) (hnext : nextSequence text = nextSequence other) : Within other := by
  cases h with
  | plain h => exact .plain (hnext ▸ h)
  | pending h hfits => exact .pending (hnext ▸ h) hfits
  | terminated h hfits haft => exact .terminated (hnext ▸ h) hfits haft

/-- **Output that comes later is scanned after what is kept.** -/
theorem scan_append (text more : JsString) (h : Within (text ++ more)) :
    Within ((scan platform text).2 ++ more) ∧ scan platform (text ++ more) =
      ((scan platform text).1 ++ (scan platform ((scan platform text).2 ++ more)).1,
        (scan platform ((scan platform text).2 ++ more)).2) := by
  induction text using scan.induct with
  | case1 text hnext =>
    have hsame : nextSequence (text ++ more) = nextSequence (kept text ++ more) := by
      unfold nextSequence
      rw [afterIntroducer_kept (Option.map_eq_none_iff.1 hnext)]
    rw [scan_plain hnext, nil_append]
    exact ⟨h.congr hsame, scan_congr hsame fun _ => kept_append text more⟩
  | case2 text body hnext =>
    obtain ⟨hopen, hwh⟩ := nextSequence_append hnext more
    have hfits : body.length + 2 ≤ terminalShellIntegrationBufferLimit := by
      cases h with
      | plain h => cases hwh.symm.trans h
      | pending h hfits =>
        obtain ⟨rfl, -⟩ := Prod.mk.inj (Option.some.inj (hwh.symm.trans h))
        rw [length_append] at hfits
        omega
      | terminated h hfits =>
        obtain ⟨rfl, hget⟩ := Prod.mk.inj (Option.some.inj (hwh.symm.trans h))
        have hle := findTerminator_of_none hopen.symm hget
        dsimp only at hle
        rw [length_append] at hfits
        omega
    rw [scan_pending hnext, if_neg hfits.not_gt, nil_append]
    have hsame : nextSequence (text ++ more) = nextSequence (esc :: 0x5d :: body ++ more) := hwh
    exact ⟨h.congr hsame, scan_congr hsame fun hnone => nomatch hwh.symm.trans hnone⟩
  | case3 text body payload after hnext _ ih =>
    obtain ⟨hget, hwh⟩ := nextSequence_append hnext more
    rw [findTerminator_append hget.symm] at hwh
    have haft : Within (after ++ more) := by
      cases h with
      | plain h => cases hwh.symm.trans h
      | pending h => cases hwh.symm.trans h
      | terminated h _ haft =>
        obtain ⟨-, heq⟩ := Prod.mk.inj (Option.some.inj (hwh.symm.trans h))
        cases heq
        exact haft
    rw [scan_terminated hnext, scan_terminated hwh, (ih haft).2, append_assoc]
    exact ⟨(ih haft).1, rfl⟩

lemma scan_scan (text : JsString) : scan platform (scan platform text).2 = ([], (scan platform text).2) := by
  have hkept (text : JsString) : scan platform (kept text) = ([], kept text) := by
    unfold kept
    split_ifs <;> exact scan_plain rfl
  induction text using scan.induct with
  | case1 text hnext =>
    rw [scan_plain hnext]
    exact hkept text
  | case2 text body hnext =>
    rw [scan_pending hnext]
    split_ifs with hover
    · exact hkept []
    · have hsame : nextSequence (esc :: 0x5d :: body) = some (body, none) :=
        congrArg _ (congrArg _ (nextSequence_append hnext []).1.symm)
      exact (scan_pending hsame).trans (by rw [if_neg hover])
  | case3 text body payload after hnext _ ih =>
    rw [scan_terminated hnext]
    exact ih

lemma feedAll_eq_scan (chunks) {buffer : JsString} (h : Within (buffer ++ chunks.flatten))
    (hbuffer : scan platform buffer = ([], buffer)) :
    feedAll platform buffer chunks = scan platform (buffer ++ chunks.flatten) := by
  induction chunks generalizing buffer with
  | nil => rw [flatten_nil, append_nil, hbuffer, feedAll]
  | cons chunk chunks ih =>
    rw [flatten_cons, ← append_assoc] at h ⊢
    obtain ⟨hrest, hscan⟩ := scan_append _ _ h
    rw [hscan, ← ih hrest (scan_scan _)]
    rfl

/-- **The scanner may be fed in any chunks**, where no OSC sequence outgrows the buffer. -/
theorem feedAll_eq_feed (chunks) (h : Within chunks.flatten) :
    feedAll platform [] chunks = feed platform [] chunks.flatten :=
  feedAll_eq_scan chunks h (scan_plain rfl)

/-- An introducer cut in two. -/
theorem feedAll_eq_feed_sample :
    let chunks := [js "ls" ++ [esc], js "]133;A", [7, 10]]
    Within chunks.flatten ∧ feedAll ⟨fun _ => none, some⟩ [] chunks =
      feed ⟨fun _ => none, some⟩ [] chunks.flatten := by
  intro chunks
  have hwithin : Within chunks.flatten := @Within.terminated _ _ _ [10] rfl (by decide) (.plain rfl)
  exact ⟨hwithin, feedAll_eq_feed chunks hwithin⟩

end CodevoEditor.Terminal
