/-
# The lanes of the Git history graph

`domain/gitHistoryGraph.ts`: a pass over the listed commits keeps twelve lanes, each empty or
waiting for the commit whose hash it holds.
-/

import CodevoEditor.Js.Text

namespace CodevoEditor.GitHistory

open Js List

/-! ## The projection -/

structure GitHistoryGraphCommit where
  hash : JsString
  parents : List JsString

/-- The heights `0`, `0.5` and `1` inside a row. -/
inductive Position
  | zero
  | half
  | one
deriving DecidableEq

structure GitHistoryGraphPoint where
  lane : ℕ
  position : Position

structure GitHistoryGraphSegment where
  fromPoint : GitHistoryGraphPoint
  toPoint : GitHistoryGraphPoint
  color : ℕ

structure GitHistoryGraphNode where
  lane : ℕ
  color : ℕ

structure GitHistoryGraphRow where
  hash : JsString
  node : Option GitHistoryGraphNode
  segments : List GitHistoryGraphSegment
  omittedEdgeCount : ℕ

structure GitHistoryGraph where
  rows : List GitHistoryGraphRow
  laneCount : ℕ
  omittedCommitCount : ℕ
  omittedEdgeCount : ℕ
  invalidCommitHash : Option JsString

def commitLimit : ℕ := 500
def laneLimit : ℕ := 12
def parentLimit : ℕ := 64
def hashLengthLimit : ℕ := 128

abbrev Lanes := List (Option JsString)

/-- The variables of the loop. -/
structure Projection where
  lanes : Lanes := List.replicate laneLimit none
  seen : List JsString := []
  rows : List GitHistoryGraphRow := []
  laneCount : ℕ := 0
  omittedEdgeCount : ℕ := 0

def validHash (hash : JsString) : Bool :=
  decide (0 < hash.length) && decide (hash.length ≤ hashLengthLimit)

def segment (fromLane : ℕ) (fromPosition : Position) (toLane : ℕ) (toPosition : Position)
    (colorLane : ℕ) : GitHistoryGraphSegment where
  fromPoint := ⟨fromLane, fromPosition⟩
  toPoint := ⟨toLane, toPosition⟩
  color := colorLane

/-- The guard at the head of the loop body. -/
def invalid (seen : List JsString) (commit : GitHistoryGraphCommit) : Bool :=
  !validHash commit.hash || seen.contains commit.hash
    || decide (parentLimit < commit.parents.length)
    || commit.parents.eraseDups.length != commit.parents.length
    || commit.parents.any fun parent =>
        !validHash parent || parent == commit.hash || seen.contains parent

def indexOf (lanes : Lanes) (value : Option JsString) : Option ℕ :=
  lanes.findIdx? (· == value)

def active (lanes : Lanes) (lane : ℕ) : Bool :=
  (lanes[lane]?.bind id).isSome

/-- The lanes that cross the row, and the lane that ends at the node. -/
def crossing (lanes : Lanes) (incomingLane : Option ℕ) : List GitHistoryGraphSegment :=
  ((List.range lanes.length).filter (active lanes)).map fun lane =>
    if incomingLane = some lane then segment lane .zero lane .half lane
    else segment lane .zero lane .one lane

/-- The variables of the loop over the parents. -/
structure Drawing where
  lanes : Lanes
  laneCount : ℕ
  segments : List GitHistoryGraphSegment
  omitted : ℕ

def Drawing.connect (nodeLane parentLane : ℕ) (drawing : Drawing) : Drawing :=
  { drawing with
    laneCount := max drawing.laneCount (parentLane + 1)
    segments := drawing.segments ++ [segment nodeLane .half parentLane .one parentLane] }

def drawParent (nodeLane : ℕ) (drawing : Drawing) (parent : JsString) : Drawing :=
  match indexOf drawing.lanes (some parent) with
  | some parentLane => drawing.connect nodeLane parentLane
  | none =>
    let free := if drawing.lanes[nodeLane]? = some none then some nodeLane
      else indexOf drawing.lanes none
    match free with
    | none => { drawing with omitted := drawing.omitted + 1 }
    | some parentLane =>
      { drawing with lanes := drawing.lanes.set parentLane (some parent) }.connect nodeLane parentLane

/-- The loop body for a commit the guard lets through. -/
def Projection.place (state : Projection) (commit : GitHistoryGraphCommit) : Projection :=
  let incomingLane := indexOf state.lanes (some commit.hash)
  let segments := crossing state.lanes incomingLane
  let seen := commit.hash :: state.seen
  match incomingLane <|> indexOf state.lanes none with
  | none =>
    let omitted := commit.parents.length + 1
    { state with
      seen, omittedEdgeCount := state.omittedEdgeCount + omitted,
      rows := state.rows ++ [⟨commit.hash, none, segments, omitted⟩] }
  | some nodeLane =>
    let drawing := commit.parents.foldl (drawParent nodeLane)
      ⟨state.lanes.set nodeLane none, max state.laneCount (nodeLane + 1), segments, 0⟩
    { lanes := drawing.lanes, seen, laneCount := drawing.laneCount
      omittedEdgeCount := state.omittedEdgeCount + drawing.omitted
      rows := state.rows ++ [⟨commit.hash, some ⟨nodeLane, nodeLane⟩, drawing.segments, drawing.omitted⟩] }

/-- The loop, with `invalidCommitHash` when it breaks. -/
def Projection.scan (state : Projection) :
    List GitHistoryGraphCommit → Projection × Option JsString
  | [] => (state, none)
  | commit :: rest =>
    if invalid state.seen commit then (state, some (commit.hash.take hashLengthLimit))
    else (state.place commit).scan rest

def projectGitHistoryGraph (commits : List GitHistoryGraphCommit) : GitHistoryGraph :=
  let scanned := Projection.scan {} (commits.take commitLimit)
  { rows := scanned.1.rows
    laneCount := scanned.1.laneCount
    omittedCommitCount := commits.length - scanned.1.rows.length
    omittedEdgeCount := scanned.1.omittedEdgeCount
    invalidCommitHash := scanned.2 }

/-- The lanes of `projectGitHistoryGraph` when its loop has passed `k` commits. -/
def lanesBefore (commits : List GitHistoryGraphCommit) (k : ℕ) : Lanes :=
  (Projection.scan {} ((commits.take commitLimit).take k)).1.lanes

/-- The lanes that enter a row from above. -/
def GitHistoryGraphRow.incoming (row : GitHistoryGraphRow) : List ℕ :=
  (row.segments.filter fun s => s.fromPoint.position = .zero).map (·.fromPoint.lane)

/-- The lanes that leave a row below. -/
def GitHistoryGraphRow.outgoing (row : GitHistoryGraphRow) : List ℕ :=
  (row.segments.filter fun s => s.toPoint.position = .one).map (·.toPoint.lane)

/-! ## Lanes -/

/-- Twelve lanes, no two waiting for the same commit. -/
structure Separate (lanes : Lanes) : Prop where
  length : lanes.length = laneLimit
  distinct : ∀ {i j : ℕ} {hash : JsString}, lanes[i]? = some (some hash) → lanes[j]? = some (some hash) → i = j

variable {lanes : Lanes} {hash : JsString}

variable {lane : ℕ} {value : Option JsString}

lemma getElem?_of_indexOf (h : indexOf lanes value = some lane) : lanes[lane]? = some value := by
  obtain ⟨hlt, heq, -⟩ := findIdx?_eq_some_iff_getElem.mp h
  rw [getElem?_eq_getElem hlt, beq_iff_eq.mp heq]

lemma not_mem_of_indexOf (h : indexOf lanes value = none) (lane : ℕ) : lanes[lane]? ≠ some value := by
  intro heq
  have := findIdx?_eq_none_iff.mp h value (mem_of_getElem? heq)
  simp at this

lemma active_iff : active lanes lane ↔ ∃ hash, lanes[lane]? = some (some hash) := by
  rcases h : lanes[lane]? with _ | _ | hash <;> simp [active, h]

lemma Separate.indexOf_some (h : Separate lanes) (hl : lanes[lane]? = some (some hash)) :
    indexOf lanes (some hash) = some lane := by
  rcases hi : indexOf lanes (some hash) with _ | found
  · exact absurd hl (not_mem_of_indexOf hi lane)
  · rw [h.distinct hl (getElem?_of_indexOf hi)]

lemma getElem?_of_set_none {i : ℕ} (h : (lanes.set lane none)[i]? = some (some hash)) :
    lanes[i]? = some (some hash) := by
  rw [getElem?_set] at h
  split at h
  · simp at h
  · exact h

lemma Separate.set_none (h : Separate lanes) (lane : ℕ) : Separate (lanes.set lane none) :=
  ⟨by simp [h.length], fun hi hj => h.distinct (getElem?_of_set_none hi) (getElem?_of_set_none hj)⟩

lemma Separate.set_some (h : Separate lanes) (lane : ℕ)
    (hn : indexOf lanes (some hash) = none) : Separate (lanes.set lane (some hash)) := by
  have hne := not_mem_of_indexOf hn
  refine ⟨by simp [h.length], fun {i j other} hi hj => ?_⟩
  rw [getElem?_set] at hi hj
  split at hi <;> split at hj <;> simp_all
  exact h.distinct hi hj

lemma separate_empty : Separate (List.replicate laneLimit none) := by
  refine ⟨by simp, fun {i j hash} hi _ => ?_⟩
  simp [getElem?_replicate] at hi

/-! ## The parents of one commit -/

/-- The parents in `done` have been handled. -/
structure Traced (nodeLane : ℕ) (cleared : Lanes) (base : List GitHistoryGraphSegment)
    (done : List JsString) (edges : List (JsString × ℕ)) (drawing : Drawing) : Prop where
  separate : Separate drawing.lanes
  segments : drawing.segments = base ++ edges.map fun edge => segment nodeLane .half edge.2 .one edge.2
  parents : (edges.map Prod.fst).Sublist done
  counted : edges.length + drawing.omitted = done.length
  held : ∀ edge ∈ edges, drawing.lanes[edge.2]? = some (some edge.1)
  kept : ∀ {lane : ℕ} {hash : JsString}, cleared[lane]? = some (some hash) → drawing.lanes[lane]? = some (some hash)
  origin : ∀ {lane : ℕ} {hash : JsString}, drawing.lanes[lane]? = some (some hash) →
    active cleared lane ∨ lane ∈ edges.map Prod.snd
  bounded : drawing.laneCount ≤ laneLimit

lemma Separate.lane_lt (h : Separate lanes) (hl : lanes[lane]? = some value) : lane + 1 ≤ laneLimit :=
  h.length ▸ (List.getElem?_eq_some_iff.mp hl).1

variable {nodeLane : ℕ} {cleared : Lanes} {base : List GitHistoryGraphSegment}
  {done : List JsString} {edges : List (JsString × ℕ)} {drawing : Drawing}

lemma Traced.connect (h : Traced nodeLane cleared base done edges drawing) {parent}
    (hs : Separate lanes) (hp : lanes[lane]? = some (some parent))
    (hkept : ∀ {i : ℕ} {hash : JsString}, drawing.lanes[i]? = some (some hash) → lanes[i]? = some (some hash))
    (horigin : ∀ {i : ℕ} {hash : JsString}, lanes[i]? = some (some hash) →
      drawing.lanes[i]? = some (some hash) ∨ i = lane) :
    Traced nodeLane cleared base (done ++ [parent]) (edges ++ [(parent, lane)])
      ({ drawing with lanes }.connect nodeLane lane) := by
  refine ⟨hs, ?_, ?_, ?_, ?_, fun hc => hkept (h.kept hc), fun {i hash} hi => ?_, max_le h.bounded (hs.lane_lt hp)⟩
  · simp [Drawing.connect, h.segments]
  · simpa using h.parents.append (.refl [parent])
  · have := h.counted
    simp [Drawing.connect]
    omega
  · intro edge he
    rcases mem_append.mp he with he | he
    · exact hkept (h.held edge he)
    · rw [mem_singleton.mp he]
      exact hp
  · rcases horigin hi with hi | rfl
    · exact (h.origin hi).imp_right fun hm => by simp_all
    · exact .inr (by simp)

lemma Traced.drawParent (h : Traced nodeLane cleared base done edges drawing) (parent : JsString) :
    ∃ edges', Traced nodeLane cleared base (done ++ [parent]) edges' (drawParent nodeLane drawing parent) := by
  unfold GitHistory.drawParent
  split
  · rename_i lane hi
    exact ⟨_, h.connect h.separate (getElem?_of_indexOf hi) id .inl⟩
  · rename_i hi
    dsimp only
    split
    -- no lane is empty: the edge is counted
    · refine ⟨edges, h.separate, h.segments, h.parents.trans (sublist_append_left ..), ?_,
        h.held, h.kept, h.origin, h.bounded⟩
      have := h.counted
      simp only [length_append, length_singleton]
      omega
    · rename_i lane hfree
      have hnull : drawing.lanes[lane]? = some none := by
        split at hfree
        · rename_i hnode
          exact Option.some.inj hfree ▸ hnode
        · exact getElem?_of_indexOf hfree
      have hlt := (List.getElem?_eq_some_iff.mp hnull).1
      refine ⟨_, h.connect (h.separate.set_some lane hi) (by simp [hlt]) ?_ ?_⟩
      · intro i hash hi
        rw [getElem?_set_ne (by rintro rfl; simp_all)]
        exact hi
      · intro i hash hi
        rw [getElem?_set] at hi
        split at hi
        · exact .inr (by simp_all)
        · exact .inl hi

lemma Traced.foldl (parents)
    (h : Traced nodeLane cleared base done edges drawing) :
    ∃ edges', Traced nodeLane cleared base (done ++ parents) edges'
      (parents.foldl (GitHistory.drawParent nodeLane) drawing) := by
  induction parents generalizing done edges drawing with
  | nil => exact ⟨edges, by simpa using h⟩
  | cons parent rest ih =>
    obtain ⟨edges', h'⟩ := h.drawParent parent
    simpa using ih h'

/-! ## One row -/

/-- What a row says of its commit and of the lanes before and after it. -/
structure Shows (commit : GitHistoryGraphCommit) (before after : Lanes)
    (row : GitHistoryGraphRow) : Prop where
  hash : row.hash = commit.hash
  incoming : ∀ lane : ℕ, lane ∈ row.incoming ↔ ∃ hash, before[lane]? = some (some hash)
  outgoing : ∀ lane : ℕ, lane ∈ row.outgoing ↔ ∃ hash, after[lane]? = some (some hash)
  expected : ∀ lane : ℕ, before[lane]? = some (some commit.hash) → row.node = some ⟨lane, lane⟩
  hidden : row.node = none → row.omittedEdgeCount = commit.parents.length + 1
  edges : ∀ node, row.node = some node → ∃ edges : List (JsString × ℕ),
    (edges.map Prod.fst).Sublist commit.parents ∧
    edges.length + row.omittedEdgeCount = commit.parents.length ∧
    ∀ edge ∈ edges, after[edge.2]? = some (some edge.1) ∧ segment node.lane .half edge.2 .one edge.2 ∈ row.segments

lemma mem_crossing {incomingLane} {s} :
    s ∈ crossing lanes incomingLane ↔ ∃ lane, active lanes lane ∧
      s = if incomingLane = some lane then segment lane .zero lane .half lane
        else segment lane .zero lane .one lane := by
  have hlt : ∀ {lane}, active lanes lane → lane < lanes.length := fun h =>
    (List.getElem?_eq_some_iff.mp (active_iff.mp h).choose_spec).1
  simp only [crossing, mem_map, mem_filter, mem_range]
  exact ⟨fun ⟨lane, ⟨_, ha⟩, he⟩ => ⟨lane, ha, he.symm⟩, fun ⟨lane, ha, he⟩ => ⟨lane, ⟨hlt ha, ha⟩, he.symm⟩⟩

lemma active_cleared {nodeLane}
    (hnode : (indexOf lanes (some hash) <|> indexOf lanes none) = some nodeLane) (lane : ℕ) :
    active (lanes.set nodeLane none) lane ↔ active lanes lane ∧ indexOf lanes (some hash) ≠ some lane := by
  rcases hin : indexOf lanes (some hash) with _ | found <;> rw [hin] at hnode
  · have hnull := getElem?_of_indexOf (show indexOf lanes none = some nodeLane from hnode)
    have hset : lanes.set nodeLane none = lanes := by
      obtain ⟨hlt, heq⟩ := List.getElem?_eq_some_iff.mp hnull
      rw [← heq, set_getElem_self]
    simp [hset]
  · obtain rfl : found = nodeLane := Option.some.inj hnode
    have hlt := (List.getElem?_eq_some_iff.mp (getElem?_of_indexOf hin)).1
    by_cases heq : found = lane
    · subst heq
      simp [active, hlt]
    · simp [active, getElem?_set_ne heq, heq]

lemma shows_drawn {commit} {nodeLane}
    (h : Separate lanes)
    (hnode : (indexOf lanes (some commit.hash) <|> indexOf lanes none) = some nodeLane)
    {edges} {drawing}
    (ht : Traced nodeLane (lanes.set nodeLane none)
      (crossing lanes (indexOf lanes (some commit.hash))) commit.parents edges drawing) :
    Shows commit lanes drawing.lanes ⟨commit.hash, some ⟨nodeLane, nodeLane⟩, drawing.segments, drawing.omitted⟩ := by
  have hclear := active_cleared hnode
  refine ⟨rfl, fun lane => ?_, fun lane => ?_, fun lane hl => ?_, by simp, ?_⟩
  · simp only [GitHistoryGraphRow.incoming, mem_map, mem_filter, ht.segments,
      mem_append, mem_crossing, ← active_iff]
    constructor
    · rintro ⟨s, ⟨⟨at', ha, rfl⟩ | ⟨edge, -, rfl⟩, hz⟩, rfl⟩
      · split <;> exact ha
      · simp [segment] at hz
    · intro ha
      refine ⟨_, ⟨.inl ⟨lane, ha, rfl⟩, ?_⟩, ?_⟩ <;> split <;> simp [segment]
  · simp only [GitHistoryGraphRow.outgoing, mem_map, mem_filter, ht.segments,
      mem_append, mem_crossing]
    constructor
    · rintro ⟨s, ⟨⟨at', ha, rfl⟩ | ⟨edge, he, rfl⟩, hz⟩, rfl⟩
      · split at hz
        · simp [segment] at hz
        · rename_i hne
          obtain ⟨hash, hh⟩ := active_iff.mp ((hclear at').mpr ⟨ha, hne⟩)
          rw [if_neg hne]
          exact ⟨hash, ht.kept hh⟩
      · exact ⟨_, ht.held edge he⟩
    · rintro ⟨hash, hh⟩
      rcases ht.origin hh with ha | hm
      · obtain ⟨ha, hne⟩ := (hclear lane).mp ha
        exact ⟨_, ⟨.inl ⟨lane, ha, (if_neg hne).symm⟩, by simp [segment]⟩, rfl⟩
      · obtain ⟨edge, he, rfl⟩ := mem_map.mp hm
        exact ⟨_, ⟨.inr ⟨edge, he, rfl⟩, by simp [segment]⟩, rfl⟩
  · rw [h.indexOf_some hl] at hnode
    obtain rfl : lane = nodeLane := Option.some.inj hnode
    rfl
  · rintro _ ⟨⟩
    refine ⟨edges, ht.parents, ht.counted, fun edge he => ⟨ht.held edge he, ?_⟩⟩
    rw [ht.segments]
    exact mem_append_right _ (mem_map.mpr ⟨edge, he, rfl⟩)

variable {state : Projection}

theorem place_shows (h : Separate state.lanes) (hc : state.laneCount ≤ laneLimit)
    (commit) :
    Separate (state.place commit).lanes ∧ (state.place commit).laneCount ≤ laneLimit ∧
    ∃ row, (state.place commit).rows = state.rows ++ [row] ∧
      Shows commit state.lanes (state.place commit).lanes row := by
  unfold Projection.place
  dsimp only
  rcases hnode : (indexOf state.lanes (some commit.hash) <|> indexOf state.lanes none)
    with _ | nodeLane
  · have hin : indexOf state.lanes (some commit.hash) = none := by
      rcases hin : indexOf state.lanes (some commit.hash) with _ | found
      · rfl
      · rw [hin] at hnode
        cases hnode
    -- every lane waits for another commit
    refine ⟨h, hc, _, rfl, rfl, fun lane => ?_, fun lane => ?_,
      fun lane hl => absurd hl (not_mem_of_indexOf hin lane), fun _ => rfl, by simp⟩
    all_goals
      simp only [GitHistoryGraphRow.incoming, GitHistoryGraphRow.outgoing, mem_map, mem_filter, mem_crossing, hin]
      simp [segment, active_iff]
  · have hlane : nodeLane + 1 ≤ laneLimit := by
      rcases hin : indexOf state.lanes (some commit.hash) with _ | found <;> rw [hin] at hnode
      · exact h.lane_lt (getElem?_of_indexOf (show indexOf _ none = some nodeLane from hnode))
      · exact h.lane_lt (getElem?_of_indexOf (Option.some.inj hnode ▸ hin))
    have hst : Traced nodeLane (state.lanes.set nodeLane none)
        (crossing state.lanes (indexOf state.lanes (some commit.hash))) [] []
        ⟨state.lanes.set nodeLane none, max state.laneCount (nodeLane + 1),
          crossing state.lanes (indexOf state.lanes (some commit.hash)), 0⟩ :=
      ⟨h.set_none nodeLane, by simp, by simp, rfl, by simp, id,
        fun hl => .inl (active_iff.mpr ⟨_, hl⟩), max_le hc hlane⟩
    obtain ⟨edges, ht⟩ := hst.foldl commit.parents
    exact ⟨ht.separate, ht.bounded, _, rfl, shows_drawn h hnode ht⟩

/-! ## Every list of commits -/

variable (commits : List GitHistoryGraphCommit)

lemma Projection.scan_separate (h : Separate state.lanes)
    (hc : state.laneCount ≤ laneLimit) :
    Separate (state.scan commits).1.lanes ∧ (state.scan commits).1.laneCount ≤ laneLimit := by
  induction commits generalizing state with
  | nil => exact ⟨h, hc⟩
  | cons commit rest ih =>
    unfold Projection.scan
    split
    · exact ⟨h, hc⟩
    · obtain ⟨hs, hb, -⟩ := place_shows h hc commit
      exact ih hs hb

lemma Projection.scan_rows (h : Separate state.lanes)
    (hc : state.laneCount ≤ laneLimit) :
    ∃ rows, (state.scan commits).1.rows = state.rows ++ rows ∧
      ((state.scan commits).2 = none → rows.length = commits.length) ∧
      ∀ k row, rows[k]? = some row → ∃ commit, commits[k]? = some commit ∧
        Shows commit (state.scan (commits.take k)).1.lanes (state.scan (commits.take (k + 1))).1.lanes row := by
  induction commits generalizing state with
  | nil => exact ⟨[], by simp [Projection.scan]⟩
  | cons commit rest ih =>
    by_cases hinv : invalid state.seen commit
    · exact ⟨[], by simp [Projection.scan, hinv]⟩
    · obtain ⟨hs, hb, row, hrow, hshow⟩ := place_shows h hc commit
      obtain ⟨rows, hrows, hall, hshows⟩ := ih hs hb
      refine ⟨row :: rows, by simp [Projection.scan, hinv, hrows, hrow],
        by simpa [Projection.scan, hinv] using hall, fun k other hk => ?_⟩
      cases k with
      | zero =>
        obtain rfl : row = other := by simpa using hk
        exact ⟨commit, rfl, by simpa [Projection.scan, hinv] using hshow⟩
      | succ k => simpa [Projection.scan, hinv] using hshows k other (by simpa using hk)

end CodevoEditor.GitHistory
