/-
# A result that grows

A result whose line is as long as the reserve grows by its costs, and is dropped from a background
turn that is full.
-/

import CodevoEditor.ClaudeSession.LineAccounts

namespace CodevoEditor.ClaudeSession

open List

lemma length_asciiBytes (text : String) : (asciiBytes text).length = text.length := by
  unfold asciiBytes
  rw [length_map, String.length_toList]

def quoted (text : String) : List UInt8 := asciiBytes "\"" ++ asciiBytes text ++ asciiBytes "\""

mutual

/-- `serde_json::to_vec`, of texts in which nothing is escaped. -/
def written : Json ℕ → List UInt8
  | .null => asciiBytes "null"
  | .bool value => asciiBytes (if value then "true" else "false")
  | .number value => asciiBytes (toString value)
  | .string text => quoted text
  | .array items => asciiBytes "[" ++ writtenItems items ++ asciiBytes "]"
  | .object fields => asciiBytes "\x7b" ++ writtenFields fields ++ asciiBytes "\x7d"

def writtenItems : List (Json ℕ) → List UInt8
  | [] => []
  | [item] => written item
  | item :: items => written item ++ asciiBytes "," ++ writtenItems items

def writtenFields : List (String × Json ℕ) → List UInt8
  | [] => []
  | [field] => writtenField field
  | field :: fields => writtenField field ++ asciiBytes "," ++ writtenFields fields

def writtenField : String × Json ℕ → List UInt8
  | (key, value) => quoted key ++ asciiBytes ":" ++ written value

end

/-- An answer of the root. -/
def answerMessage : Json ℕ :=
  .object [("type", .string "assistant"), ("message", .object [("content",
    .array [.object [("type", .string "text"), ("text", .string "a")]])])]

/-- Its line, with blanks up to the budget of an answer. -/
def answerLine : List UInt8 :=
  written answerMessage ++ List.replicate (BudgetClass.answer.limit - 72) 32 ++ [newline]

/-- A text of so many characters. -/
def filled (filler : ℕ) : String := String.ofList (List.replicate filler 'a')

def resultMessage (filler : ℕ) : Json ℕ :=
  .object [("type", .string "result"), ("result", .string (filled filler)), ("total_cost_usd", .number 1)]

/-- The result with its costs, as it is passed on. -/
def pricedMessage (filler delta : ℕ) : Json ℕ :=
  .object [("type", .string "result"), ("result", .string (filled filler)),
    ("total_cost_usd", .number delta), ("codevo_process_total_cost_usd", .number 1)]

def resultFiller : ℕ := backgroundResultReserveBytes - 49

def resultLine : List UInt8 := written (resultMessage resultFiller) ++ [newline]

/-- A platform that reads these two lines. -/
def grownPlatform : Platform ℕ ℕ :=
  { barePlatform with
    fromSlice := fun line =>
      if line = answerLine then some answerMessage
      else if line = resultLine then some (resultMessage resultFiller)
      else none
    toVec := fun value => some (written value) }

/-- The answer, and the result after it. -/
def grownCalls : List RouterCall := [.feed 0 answerLine, .feed 0 resultLine]

lemma length_texts : "\x7b".length = 1 ∧ "\x7d".length = 1 ∧ "\"".length = 1 ∧ ":".length = 1 ∧
    ",".length = 1 ∧ "type".length = 4 ∧ "result".length = 6 ∧ "total_cost_usd".length = 14 ∧
    "codevo_process_total_cost_usd".length = 29 ∧ (toString 1).length = 1 := by decide

lemma length_answerLine : answerLine.length = BudgetClass.answer.limit := by
  have hmsg : (written answerMessage).length = 71 := by decide
  have hlimit : 72 ≤ BudgetClass.answer.limit := by decide
  unfold answerLine
  rw [length_append, length_append, hmsg, length_replicate, length_singleton]
  omega

lemma length_written_result (filler : ℕ) : (written (resultMessage filler)).length = 48 + filler := by
  have htexts := length_texts
  unfold resultMessage filled
  simp only [written, writtenFields, writtenField, quoted, length_append, length_asciiBytes,
    String.length_ofList, length_replicate]
  omega

lemma resultFiller_add : resultFiller + 49 = backgroundResultReserveBytes := by decide

lemma length_resultLine : resultLine.length = backgroundResultReserveBytes := by
  have hfiller := resultFiller_add
  unfold resultLine
  rw [length_append, length_written_result, length_singleton]
  omega

lemma length_written_priced (filler : ℕ) {delta} (hdelta : delta ≤ 1) :
    (written (pricedMessage filler delta)).length = 82 + filler := by
  have htexts := length_texts
  have hdigits : (toString delta).length = 1 := by
    obtain rfl | rfl : delta = 0 ∨ delta = 1 := by omega
    · decide
    · decide
  unfold pricedMessage filled
  simp only [written, writtenFields, writtenField, quoted, length_append, length_asciiBytes,
    String.length_ofList, length_replicate]
  omega

lemma newline_not_mem_asciiBytes {text}
    (h : ∀ character ∈ text.toList, UInt8.ofNat character.toNat ≠ newline) : newline ∉ asciiBytes text := by
  intro hmem
  obtain ⟨character, hcharacter, heq⟩ := mem_map.1 hmem
  exact h character hcharacter heq

lemma pieces_answerLine : pieces answerLine = [answerLine] := by
  refine pieces_of_line fun hmem => ?_
  rcases mem_append.1 hmem with hmsg | hblank
  · exact absurd hmsg (by decide)
  · exact absurd (eq_of_mem_replicate hblank) (by decide)

lemma newline_not_mem_result (filler : ℕ) : newline ∉ written (resultMessage filler) := by
  have hfill : newline ∉ asciiBytes (filled filler) := newline_not_mem_asciiBytes fun character h => by
    unfold filled at h
    rw [String.toList_ofList] at h
    rw [eq_of_mem_replicate h]
    decide
  unfold resultMessage
  simp only [written, writtenFields, writtenField, quoted, mem_append, not_or]
  repeat' apply And.intro
  all_goals first | exact hfill | decide

lemma pieces_resultLine : pieces resultLine = [resultLine] :=
  pieces_of_line (newline_not_mem_result resultFiller)

lemma getLast?_answerLine : answerLine.getLast? = some newline := getLast?_concat

lemma getLast?_resultLine : resultLine.getLast? = some newline := getLast?_concat

-- What the lines are is no more looked into.
attribute [irreducible] answerLine resultLine resultFiller

section Result

variable {router : Router ℕ} {filler : ℕ}

lemma priced_of_result (line) :
    (router.normalizeCost grownPlatform .unsolicited (resultMessage filler) line).1 =
      written (pricedMessage filler (max (1 - router.costBaseline) 0)) ++ [newline] := by
  have hres : rootResult (resultMessage filler) := rfl
  have htot : Router.processTotal grownPlatform (resultMessage filler) = some 1 := rfl
  unfold Router.normalizeCost
  rfl

lemma classify_result (hatt : router.attached = none) {active}
    (hact : router.unsolicited = some active) :
    (router.classify (resultMessage filler) .default) = ((router, .default), .unsolicited) := by
  have hkind : (resultMessage filler).strOf "type" = some "result" := rfl
  have hnames : router.namesOurResult (resultMessage filler) = false := by
    unfold Router.namesOurResult
    rw [hatt]
    rfl
  have howns : router.attachedRunOwns (resultMessage filler) = false := by
    unfold Router.attachedRunOwns
    rw [hatt]
    rfl
  unfold Router.classify
  rw [hkind, hnames, howns, hact]
  simp

variable (router) in
/-- **There is no room for the result** in a turn that is full but for its reserve. -/
theorem dropped_of_full (hatt : router.attached = none) {active}
    (hact : router.unsolicited = some active)
    (hfull : active.output.length = BudgetClass.answer.limit) (line) :
    (router.messagePassing grownPlatform (resultMessage resultFiller) line).dropped := by
  have hres : rootResult (resultMessage resultFiller) := rfl
  have hpre := router.routes_beforeClassify grownPlatform (resultMessage resultFiller)
  have hkeeps := router.keeps_beforeClassify grownPlatform (resultMessage resultFiller) .default
  obtain ⟨shown, hshn, -⟩ : ∃ shown,
      backgroundLine grownPlatform (resultMessage resultFiller) line = some shown ∧ shown.length ≤ line.length :=
    length_backgroundLine_le (display_of_result hres) line
  unfold Router.messagePassing
  set before := (router.beforeClassify grownPlatform (resultMessage resultFiller) .default).1
  have hopen : before.unsolicited = some active := hkeeps.unsolicited_eq.trans hact
  rw [classify_result (hpre.detached hatt) hopen]
  dsimp only
  rw [(Router.delivery_eq_unsolicited _ _).2 rfl]
  unfold Router.passingTo Passing.dropped Passing.receiver
  dsimp only
  rw [hopen, if_pos rfl, hshn, Option.any_some, Option.map_some, Option.any_some, priced_of_result]
  have hbudget : BudgetClass.of (resultMessage resultFiller) = .closing := (Router.of_eq_closing _).2 hres
  have hform := length_written_priced resultFiller (show max (1 - before.costBaseline) 0 ≤ 1 by omega)
  have hlimit : BudgetClass.answer.limit + backgroundResultReserveBytes = BudgetClass.closing.limit := by
    decide
  rw [if_neg (by decide), hbudget]
  unfold UnsolicitedTurn.push
  rw [if_pos]
  · rfl
  · rw [length_append, hform, length_singleton, hfull]
    have hfiller := resultFiller_add
    omega

end Result

lemma passing_answer (cap : ℕ) (line) :
    (Router.new grownPlatform cap).messagePassing grownPlatform answerMessage line =
      ⟨[], some .default, .unsolicited, some line, .answer⟩ := by
  have hcompact bytes : compactBackgroundFrame grownPlatform answerMessage bytes = none := by
    unfold compactBackgroundFrame
    split
    · rfl
    · split
      · rfl
      · rfl
  have hshn : backgroundLine grownPlatform answerMessage line = some line := by
    unfold backgroundLine
    rw [hcompact]
    rfl
  have hform : ((Router.new grownPlatform cap).messagePassing grownPlatform answerMessage line).form =
      (backgroundLine grownPlatform answerMessage line).map fun line => line := rfl
  rw [hshn] at hform
  have hrest : (Router.new grownPlatform cap).messagePassing grownPlatform answerMessage line =
      ⟨[], some .default, .unsolicited,
        ((Router.new grownPlatform cap).messagePassing grownPlatform answerMessage line).form, .answer⟩ := rfl
  rw [hrest, hform]
  rfl

section Run

variable (env : Platform ℕ ℕ) (stream : Stream ℕ) (now : ℕ) {line : List UInt8}

lemma fed_of_line (hpieces : pieces line = [line]) (hlast : line.getLast? = some newline) :
    ((RouterCall.feed now line).streamed env stream).fed = [] := by
  rw [streamed_of_line env stream now hpieces]
  exact if_pos (decide_eq_true hlast)

lemma attached_of_line (hatt : stream.router.attached = none) :
    ((RouterCall.feed now line).streamed env stream).router.attached = none :=
  ((Router.absorbs_feed env stream.router now line).detached hatt).1

lemma mem_of_line (first) (h : pieces line = [line]) :
    .absorbed (((RouterCall.feed now first).streamed env stream).absorbed env line) ∈
      streamRun env stream [.feed now first, .feed now line] := by
  refine mem_append_right _ (mem_append_left _ ?_)
  rw [events_of_line env _ now h]
  exact mem_singleton.2 rfl

end Run

lemma unsolicited_of_answer (cap now : ℕ) {line} (hpieces : pieces line = [line])
    (hlast : line.getLast? = some newline) (hread : grownPlatform.fromSlice line = some answerMessage)
    (hlen : line.length = BudgetClass.answer.limit) :
    ∃ active, ((RouterCall.feed now line).streamed grownPlatform
        (.start grownPlatform cap)).router.unsolicited = some active ∧
      active.output.length = BudgetClass.answer.limit := by
  set absorbed := (Stream.start grownPlatform cap).absorbed grownPlatform line with habs
  have hacc : Accounted grownPlatform absorbed := by
    refine (accountedRun grownPlatform cap [.feed now line]).accounted absorbed ?_
    have hrun : streamRun grownPlatform (.start grownPlatform cap) [.feed now line] =
        (RouterCall.feed now line).events grownPlatform (.start grownPlatform cap) ++ [] := rfl
    rw [hrun, events_of_line _ _ _ hpieces]
    exact mem_singleton.2 rfl
  have hcmp : absorbed.complete := decide_eq_true hlast
  have hline : absorbed.line = line := rfl
  have hsht : absorbed.Short := by
    have hlimit : BudgetClass.answer.limit ≤ maxRoutedLineBytes := by decide
    unfold Absorbed.Short
    rw [hline, hlen]
    omega
  have hpassing : absorbed.passing grownPlatform = ⟨[], some .default, .unsolicited, some line, .answer⟩ := by
    unfold Absorbed.passing Router.passing
    rw [hline, hread]
    exact passing_answer cap line
  obtain ⟨-, -, hact⟩ := hacc.passes hsht hcmp
  have hholds := (Router.holds_backgroundChange absorbed.after.router now).unsolicited_eq
  rw [streamed_of_line _ _ _ hpieces, hholds, hact, hpassing]
  refine ⟨_, rfl, ?_⟩
  unfold Passing.pushed UnsolicitedTurn.push
  dsimp only
  rw [if_neg]
  · exact hlen
  · rw [hlen]
    change ¬ BudgetClass.answer.limit < 0 + BudgetClass.answer.limit
    omega

lemma dropped_of_answered {stream : Stream ℕ} {line : List UInt8} (hfed : stream.fed = [])
    (hatt : stream.router.attached = none) {active}
    (hact : stream.router.unsolicited = some active)
    (hfull : active.output.length = BudgetClass.answer.limit)
    (hread : grownPlatform.fromSlice line = some (resultMessage resultFiller)) :
    ((stream.absorbed grownPlatform line).passing grownPlatform).dropped := by
  have hline : (stream.absorbed grownPlatform line).line = line := by
    change stream.fed ++ line = line
    rw [hfed, nil_append]
  unfold Absorbed.passing Router.passing
  rw [hline, hread]
  exact dropped_of_full { stream.router with line := [] } hatt hact hfull line

lemma fromSlice_answerLine : grownPlatform.fromSlice answerLine = some answerMessage := if_pos rfl

lemma fromSlice_resultLine : grownPlatform.fromSlice resultLine = some (resultMessage resultFiller) := by
  have hlimit : BudgetClass.answer.limit ≠ backgroundResultReserveBytes := by decide
  have hoth : resultLine ≠ answerLine := fun heq => by
    have hlen := congrArg List.length heq
    rw [length_resultLine, length_answerLine] at hlen
    exact hlimit hlen.symm
  unfold grownPlatform
  dsimp only
  rw [if_neg hoth, if_pos rfl]

/-- **A result that is no longer than the reserve is dropped**, as it grows by its costs. -/
theorem grown_result_is_dropped :
    ¬ ∀ calls absorbed,
      .absorbed absorbed ∈ streamRun grownPlatform (.start grownPlatform wakeUpReplyCap) calls →
      absorbed.Short → absorbed.complete → ∀ message,
      grownPlatform.fromSlice absorbed.line = some message → rootResult message →
      absorbed.line.length ≤ backgroundResultReserveBytes →
      (absorbed.passing grownPlatform).dropped = false := by
  intro h
  set answered := (RouterCall.feed 0 answerLine).streamed grownPlatform (.start grownPlatform wakeUpReplyCap)
  have hfed : answered.fed = [] := fed_of_line _ _ _ pieces_answerLine getLast?_answerLine
  have hatt : answered.router.attached = none := attached_of_line _ _ _ rfl
  obtain ⟨active, hact, hfull⟩ := unsolicited_of_answer wakeUpReplyCap 0 pieces_answerLine
    getLast?_answerLine fromSlice_answerLine length_answerLine
  have hdrop := dropped_of_answered hfed hatt hact hfull fromSlice_resultLine
  have hmem : .absorbed (answered.absorbed grownPlatform resultLine) ∈
      streamRun grownPlatform (.start grownPlatform wakeUpReplyCap) grownCalls :=
    mem_of_line _ _ _ _ pieces_resultLine
  have hline : (answered.absorbed grownPlatform resultLine).line = resultLine := by
    change answered.fed ++ resultLine = resultLine
    rw [hfed, nil_append]
  have hshort : (answered.absorbed grownPlatform resultLine).Short := by
    have hlimit : backgroundResultReserveBytes ≤ maxRoutedLineBytes := by decide
    unfold Absorbed.Short
    rw [hline, length_resultLine]
    omega
  have hkept := h grownCalls _ hmem hshort (decide_eq_true getLast?_resultLine)
    (resultMessage resultFiller) (by rw [hline]; exact fromSlice_resultLine) rfl
    (by rw [hline, length_resultLine])
  rw [hdrop] at hkept
  cases hkept

end CodevoEditor.ClaudeSession
