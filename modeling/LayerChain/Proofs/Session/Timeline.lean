import LayerChain.Proofs.Session.Calls

/-!
# Sessions as timelines

A `Timeline` is an editor that keeps what undo and redo can show in the plainest way: the list of
all the contents they can reach, with a cursor on the present one, and one id counter that never
goes back. A session keeps two stacks of entries with the chain before and after each edit
instead. `Tracks` says how the two stacks lie along the list, each call keeps it so, and
`session_follows_timeline` concludes that nobody can tell the two editors apart.
-/

namespace LayerChain

/-- What a chain shows: all but its id counter. -/
structure View where
  inputDimension : UInt64
  layers : List Layer

/-- What a chain shows. -/
def Chain.view (chain : Chain) : View := ⟨chain.inputDimension, chain.layers⟩

/-- The chain that shows a view and has an id counter. -/
def View.chain (view : View) (nextId : Nat) : Chain := ⟨view.inputDimension, view.layers, nextId⟩

/-- An editor with a list of contents, a cursor on one of them, and one id counter. -/
structure Timeline where
  views : List View
  cursor : Nat
  cursor_lt : cursor < views.length
  /-- The id of the next layer to be appended, whatever the cursor is on. -/
  counter : Nat
  /-- How many contents are kept behind the cursor at most. -/
  limit : Nat
  strict : Bool

namespace Timeline

/-- A timeline that starts with a chain. -/
def start (chain : Chain) (config : Config) : Timeline :=
  ⟨[chain.view], 0, Nat.one_pos, chain.nextId, config.maxUndoLevels, config.strictSettings⟩

/-- What the cursor is on. -/
def current (timeline : Timeline) : View := timeline.views.get ⟨timeline.cursor, timeline.cursor_lt⟩

/-- How many contents stay behind the cursor when it goes on by one. -/
def kept (timeline : Timeline) : Nat := min (timeline.cursor + 1) timeline.limit

/-- Forgets what is ahead of the cursor, puts a new content there and moves on to it; at most
`limit` contents stay behind. -/
def commit (timeline : Timeline) (next : Chain) : Timeline where
  views := (timeline.views.take (timeline.cursor + 1) ++ [next.view]).drop
    (timeline.cursor + 1 - timeline.kept)
  cursor := timeline.kept
  cursor_lt := by
    have := timeline.cursor_lt
    simp only [kept, List.length_drop, List.length_append, List.length_take, List.length_singleton]
    omega
  counter := next.nextId
  limit := timeline.limit
  strict := timeline.strict

lemma views_commit (timeline : Timeline) (next : Chain) :
    (timeline.commit next).views = (timeline.views.take (timeline.cursor + 1) ++ [next.view]).drop
      (timeline.cursor + 1 - timeline.kept) := rfl

lemma cursor_commit (timeline : Timeline) (next : Chain) :
    (timeline.commit next).cursor = timeline.kept := rfl

/-- Edits the content that the cursor is on. -/
def edit (timeline : Timeline) (edit : Edit) : Except Error Timeline :=
  ((timeline.current.chain timeline.counter).apply edit).map timeline.commit

/-- Carries out a call. Looking at sources moves nothing. -/
def run (timeline : Timeline) : Session.Call → Except Error Timeline
  | .append kind => timeline.edit (.append kind)
  | .appendNamed name => do timeline.edit (.append (← Kind.ofName name))
  | .update id patch => timeline.edit (.update timeline.strict id patch)
  | .remove id => timeline.edit (.remove id)
  | .setInputDimension n => timeline.edit (.setInputDimension n)
  | .place id placement => timeline.edit (.place id placement)
  | .repropagate => timeline.edit .repropagate
  | .undo =>
    if timeline.cursor = 0 then .error .nothingToUndo
    else .ok { timeline with
      cursor := timeline.cursor - 1
      cursor_lt := Nat.lt_of_le_of_lt (Nat.sub_le _ 1) timeline.cursor_lt }
  | .redo =>
    if h : timeline.cursor + 1 < timeline.views.length then
      .ok { timeline with cursor := timeline.cursor + 1, cursor_lt := h }
    else .error .nothingToRedo
  | .source => .ok timeline

/-- The timeline after a call. A call that fails changes nothing. -/
def step (timeline : Timeline) (call : Session.Call) : Timeline :=
  match timeline.run call with
  | .ok after => after
  | .error _ => timeline

/-- The timeline after a list of calls. -/
def after (timeline : Timeline) (calls : List Session.Call) : Timeline :=
  calls.foldl step timeline

end Timeline

/-! ## Stacks along a list -/

namespace History

/-- Each entry of a stack starts, seen from the top, with what the one above it ends with: `near`
is the end that faces the top, and `view` is what faces the topmost entry. -/
def Linked (near far : Entry → Chain) (view : View) : List Entry → Prop
  | [] => True
  | entry :: rest => (near entry).view = view ∧ Linked near far (far entry).view rest

/-- A stack stays linked when its bottom is forgotten. -/
lemma Linked.take {near far : Entry → Chain} {view : View} {entries : List Entry}
    (h : Linked near far view entries) (n : Nat) : Linked near far view (entries.take n) := by
  induction entries generalizing view n with
  | nil => simpa using h
  | cons entry rest ih =>
    cases n with
    | zero => trivial
    | succ n => exact ⟨h.1, ih h.2 n⟩

end History

/-- A session whose stacks lie along a timeline: the chains before the entries to undo are what is
behind the cursor, and the chains after the entries to redo are what is ahead of it. -/
structure Session.Tracks (session : Session) (timeline : Timeline) : Prop where
  views : timeline.views =
    (session.history.undoable.map fun entry => entry.before.view).reverse ++
      session.chain.view :: session.history.redoable.map fun entry => entry.after.view
  cursor : timeline.cursor = session.history.undoable.length
  behind : History.Linked History.Entry.after History.Entry.before session.chain.view
    session.history.undoable
  ahead : History.Linked History.Entry.before History.Entry.after session.chain.view
    session.history.redoable
  nextId : session.chain.nextId = timeline.counter
  counter : session.counter = timeline.counter
  counter_le : timeline.counter ≤ maxCounter
  nextId_le : ∀ chain ∈ session.history.chains, chain.nextId ≤ timeline.counter
  limit : timeline.limit = session.history.limit
  strict : timeline.strict = session.strict
  room : session.history.undoable.length + session.history.redoable.length ≤ session.history.limit

/-! ## One call -/

namespace Timeline

/-- A timeline carries out the edit that a call asks a session for. -/
lemma run_eq_edit {session : Session} {timeline : Timeline} (hs : timeline.strict = session.strict)
    {call : Session.Call} {edit : Edit} (h : session.editOf call = some edit) :
    timeline.run call = timeline.edit edit := by
  cases call with
  | appendNamed name =>
    obtain ⟨kind, hkind, rfl⟩ := Option.map_eq_some_iff.1 h
    rw [run, Kind.ofName, hkind]
    rfl
  | update id patch =>
    cases h
    rw [run, hs]
  | append kind =>
    cases h
    rfl
  | remove id =>
    cases h
    rfl
  | setInputDimension n =>
    cases h
    rfl
  | place id placement =>
    cases h
    rfl
  | repropagate =>
    cases h
    rfl
  | undo => cases h
  | redo => cases h
  | source => cases h

/-- A cursor behind a part of a list is on what comes next. -/
lemma current_of_views {timeline : Timeline} {behind ahead : List View} {view : View}
    (hv : timeline.views = behind ++ view :: ahead) (hc : timeline.cursor = behind.length) :
    timeline.current = view := by
  have h : timeline.views[timeline.cursor]? = some view := by
    rw [hv, hc, List.getElem?_append_right (Nat.le_refl _), Nat.sub_self]
    rfl
  exact Option.some.inj ((List.getElem?_eq_getElem timeline.cursor_lt).symm.trans h)

end Timeline

namespace Session

/-- A session starts with nothing to undo or redo. -/
lemma tracks_start {chain : Chain} (config : Config) (hc : chain.nextId ≤ maxCounter) :
    (ofChain chain config).Tracks (Timeline.start chain config) where
  views := rfl
  cursor := rfl
  behind := trivial
  ahead := trivial
  nextId := rfl
  counter := rfl
  counter_le := hc
  nextId_le := by
    intro c hc
    cases hc
  limit := rfl
  strict := rfl
  room := Nat.zero_le _

namespace Tracks

variable {session : Session} {timeline : Timeline}

lemma current (h : session.Tracks timeline) : timeline.current = session.chain.view :=
  Timeline.current_of_views h.views (by rw [h.cursor, List.length_reverse, List.length_map])

/-- Both editors edit the same chain. -/
lemma chain_eq (h : session.Tracks timeline) :
    session.chain = timeline.current.chain timeline.counter := by
  rw [h.current, ← h.nextId]
  rfl

/-- Taking up the chain after an edit. -/
lemma commit (h : session.Tracks timeline) (description : String) {next : Chain}
    (hle : session.chain.nextId ≤ next.nextId) (hmax : next.nextId ≤ maxCounter) :
    (session.commit description next).Tracks (timeline.commit next) where
  views := by
    -- the new stack of entries to undo is the old one with one more on top, cut at the bottom
    have htake : timeline.views.take (timeline.cursor + 1) =
        (session.chain.view :: session.history.undoable.map fun entry => entry.before.view).reverse := by
      rw [h.views, List.reverse_cons, List.append_cons]
      exact List.take_left' (by simp [h.cursor])
    have hdrop : timeline.cursor + 1 - timeline.kept =
        (session.chain.view :: session.history.undoable.map fun entry => entry.before.view).length -
          session.history.limit := by
      rw [Timeline.kept, h.limit, h.cursor, List.length_cons, List.length_map]
      omega
    rw [Timeline.views_commit, htake, hdrop, List.drop_append_of_le_length (by simp),
      ← List.reverse_take]
    simp [Session.commit, History.record, List.map_take]
  cursor := by
    rw [Timeline.cursor_commit, Timeline.kept, h.cursor, h.limit]
    simp only [Session.commit, History.record, List.length_take, List.length_cons]
    omega
  behind := by
    have hl : History.Linked History.Entry.after History.Entry.before next.view
        (⟨description, session.chain, next⟩ :: session.history.undoable) := ⟨rfl, h.behind⟩
    exact hl.take session.history.limit
  ahead := trivial
  nextId := rfl
  counter := by
    have := h.nextId
    have := h.counter
    simp only [Session.commit, Timeline.commit]
    omega
  counter_le := hmax
  nextId_le := by
    have hold : timeline.counter ≤ next.nextId := h.nextId ▸ hle
    intro c hc
    simp only [History.chains, Session.commit, History.record, List.append_nil,
      List.mem_flatMap] at hc
    obtain ⟨entry, he, hc⟩ := hc
    rcases List.mem_cons.1 (List.mem_of_mem_take he) with rfl | he
    · simp only [List.mem_cons, List.not_mem_nil, or_false] at hc
      rcases hc with rfl | rfl
      · exact hle
      · exact Nat.le_refl _
    · refine Nat.le_trans (h.nextId_le c ?_) hold
      exact List.mem_flatMap.2 ⟨entry, List.mem_append_left _ he, hc⟩
  limit := h.limit
  strict := h.strict
  room := by
    simp only [Session.commit, History.record, List.length_take, List.length_nil]
    omega

/-- A chain of the history comes back under the counter of now. -/
lemma nextId_restore (h : session.Tracks timeline) {chain : Chain} {history : History}
    (hc : chain ∈ session.history.chains) :
    (session.restore chain history).chain.nextId = timeline.counter := by
  have hle := h.nextId_le chain hc
  simp only [restore, Chain.raiseCounter, h.counter]
  omega

/-- The latest edit led to the present chain, and the edits before it to the chain before it. -/
lemma behind_cons (h : session.Tracks timeline) {entry : History.Entry}
    {rest : List History.Entry} (hu : session.history.undoable = entry :: rest) :
    entry.after.view = session.chain.view ∧
      History.Linked History.Entry.after History.Entry.before entry.before.view rest := by
  have hbehind := h.behind
  rw [hu] at hbehind
  exact hbehind

/-- The next edit starts from the present chain, and the edits after it from the chain after it. -/
lemma ahead_cons (h : session.Tracks timeline) {entry : History.Entry}
    {rest : List History.Entry} (hr : session.history.redoable = entry :: rest) :
    entry.before.view = session.chain.view ∧
      History.Linked History.Entry.before History.Entry.after entry.after.view rest := by
  have hahead := h.ahead
  rw [hr] at hahead
  exact hahead

/-- Going back by one entry: the chain before it comes back, under the counter of now. -/
lemma undo (h : session.Tracks timeline) {entry : History.Entry} {rest : List History.Entry}
    (hu : session.history.undoable = entry :: rest) :
    (session.restore entry.before { session.history with
      undoable := rest, redoable := entry :: session.history.redoable }).Tracks
    { timeline with
      cursor := timeline.cursor - 1
      cursor_lt := Nat.lt_of_le_of_lt (Nat.sub_le _ 1) timeline.cursor_lt } where
  views := by
    rw [h.views, hu, ← (h.behind_cons hu).1]
    simp [restore, Chain.raiseCounter, Chain.view]
  cursor := by
    have := h.cursor
    rw [hu, List.length_cons] at this
    simp only [restore]
    omega
  behind := (h.behind_cons hu).2
  ahead := by
    refine ⟨rfl, ?_⟩
    rw [(h.behind_cons hu).1]
    exact h.ahead
  nextId := h.nextId_restore (by simp [History.chains, hu])
  counter := h.counter
  counter_le := h.counter_le
  nextId_le := by
    intro c hc
    exact h.nextId_le c (History.chains_undo hu hc)
  limit := h.limit
  strict := h.strict
  room := by
    have := h.room
    rw [hu, List.length_cons] at this
    simp only [restore, List.length_cons]
    omega

/-- Going ahead by one entry: the chain after it comes back, under the counter of now. -/
lemma redo (h : session.Tracks timeline) {entry : History.Entry} {rest : List History.Entry}
    (hr : session.history.redoable = entry :: rest)
    (hc : timeline.cursor + 1 < timeline.views.length) :
    (session.restore entry.after { session.history with
      undoable := entry :: session.history.undoable, redoable := rest }).Tracks
    { timeline with cursor := timeline.cursor + 1, cursor_lt := hc } where
  views := by
    rw [h.views, hr, ← (h.ahead_cons hr).1]
    simp [restore, Chain.raiseCounter, Chain.view]
  cursor := congrArg (· + 1) h.cursor
  behind := by
    refine ⟨rfl, ?_⟩
    rw [(h.ahead_cons hr).1]
    exact h.behind
  ahead := (h.ahead_cons hr).2
  nextId := h.nextId_restore (by simp [History.chains, hr])
  counter := h.counter
  counter_le := h.counter_le
  nextId_le := by
    intro c hc
    exact h.nextId_le c (History.chains_redo hr hc)
  limit := h.limit
  strict := h.strict
  room := by
    have := h.room
    rw [hr, List.length_cons] at this
    simp only [restore, List.length_cons]
    omega

/-- The ends of a timeline are where a session's stacks are empty. -/
lemma length_views (h : session.Tracks timeline) :
    session.history.undoCount + 1 + session.history.redoCount = timeline.views.length := by
  rw [h.views, List.length_append, List.length_reverse, List.length_cons, List.length_map,
    List.length_map, History.undoCount, History.redoCount]
  omega

end Tracks

/-! ## All calls -/

/-- Both editors fail with the same error, or both go on and stay together. -/
def Agree : Except Error Session → Except Error Timeline → Prop
  | .ok session, .ok timeline => session.Tracks timeline
  | .error e, .error e' => e = e'
  | _, _ => False

namespace Tracks

variable {session : Session} {timeline : Timeline}

lemma edit (h : session.Tracks timeline) (edit : Edit) :
    Agree (session.edit edit) (timeline.edit edit) := by
  rw [Session.edit, Timeline.edit, ← h.chain_eq]
  cases ha : session.chain.apply edit with
  | error e => rfl
  | ok next =>
    have hc : session.chain.nextId ≤ maxCounter := h.nextId ▸ h.counter_le
    obtain ⟨hle, hmax⟩ := Chain.counter_le_of_apply ha hc
    exact h.commit _ hle hmax

/-- A reply beside the session after an edit does not count. -/
lemma edit_map (h : session.Tracks timeline) (edit : Edit) (reply : Session → Reply) :
    Agree (((session.edit edit).map fun s => (reply s, s)).map Prod.snd) (timeline.edit edit) := by
  have ha := h.edit edit
  cases hs : session.edit edit with
  | error e =>
    rw [hs] at ha
    exact ha
  | ok s =>
    rw [hs] at ha
    exact ha

/-- Going back has the same outcome for both editors. -/
lemma run_undo (h : session.Tracks timeline) :
    Agree ((session.run .undo).map Prod.snd) (timeline.run .undo) := by
  have hlen := h.cursor
  cases hu : session.history.undoable with
  | nil =>
    rw [hu, List.length_nil] at hlen
    simp [Session.run, History.undo, hu, Timeline.run, hlen, Agree, bind, Except.bind, Except.map]
  | cons entry rest =>
    rw [hu, List.length_cons] at hlen
    have ht := h.undo hu
    simpa [Session.run, History.undo, hu, Timeline.run, hlen, Agree, bind, Except.bind, Except.map,
      pure, Except.pure] using ht

/-- Going ahead has the same outcome for both editors. -/
lemma run_redo (h : session.Tracks timeline) :
    Agree ((session.run .redo).map Prod.snd) (timeline.run .redo) := by
  have hlen := h.length_views
  rw [History.undoCount, ← h.cursor] at hlen
  cases hr : session.history.redoable with
  | nil =>
    rw [History.redoCount, hr, List.length_nil] at hlen
    have hend : ¬timeline.cursor + 1 < timeline.views.length := by omega
    simp [Session.run, History.redo, hr, Timeline.run, hend, Agree, bind, Except.bind, Except.map]
  | cons entry rest =>
    rw [History.redoCount, hr, List.length_cons] at hlen
    have hin : timeline.cursor + 1 < timeline.views.length := by omega
    have ht := h.redo hr hin
    simpa [Session.run, History.redo, hr, Timeline.run, hin, Agree, bind, Except.bind, Except.map,
      pure, Except.pure] using ht

/-- A call other than a look at the source has the same outcome for both editors. -/
theorem run (h : session.Tracks timeline) {call : Call} (hc : call ≠ .source) :
    Agree ((session.run call).map Prod.snd) (timeline.run call) := by
  cases hasked : session.editOf call with
  | some edit =>
    obtain ⟨reply, hrun, -⟩ := exists_reply_of_editOf hasked
    rw [hrun, Timeline.run_eq_edit h.strict hasked]
    exact h.edit_map edit fun _ => reply
  | none =>
    rcases cases_of_editOf_eq_none hasked with ⟨name, rfl, hname⟩ | rfl | rfl | rfl
    · rw [Session.run, Timeline.run, hname]
      rfl
    · exact h.run_undo
    · exact h.run_redo
    · exact absurd rfl hc

/-- A look at the source changes remembered sources only. -/
lemma source (h : session.Tracks timeline) : (session.step .source).Tracks timeline := by
  rw [step, Session.run]
  cases hf : session.cache.fetch session.generator session.model with
  | error e => exact h
  | ok found => exact { h with }

/-- Each call keeps the two editors together. -/
theorem step (h : session.Tracks timeline) (call : Call) :
    (session.step call).Tracks (timeline.step call) := by
  by_cases hc : call = .source
  · subst hc
    exact h.source
  · have hr := h.run hc
    rw [Session.step, Timeline.step]
    cases hs : session.run call with
    | error e =>
      cases ht : timeline.run call with
      | error e' => exact h
      | ok t => simp [hs, ht, Agree, Except.map] at hr
    | ok found =>
      cases ht : timeline.run call with
      | error e' => simp [hs, ht, Agree, Except.map] at hr
      | ok t =>
        rw [hs, ht] at hr
        exact hr

/-- Any number of calls keeps the two editors together. -/
theorem after (h : session.Tracks timeline) (calls : List Call) :
    (session.after calls).Tracks (timeline.after calls) := by
  induction calls generalizing session timeline with
  | nil => exact h
  | cons call rest ih => exact ih (h.step call)

end Tracks

/-! ## Whole runs -/

/-- The outcome of a call without what it comes to. -/
def outcome {α : Type} (result : Except Error α) : Except Error Unit := result.map fun _ => ()

lemma Agree.outcome_eq {result : Except Error (Reply × Session)} {result' : Except Error Timeline}
    (h : Agree (result.map Prod.snd) result') : outcome result = outcome result' := by
  cases result with
  | error e =>
    cases result' with
    | error e' => exact congrArg Except.error h
    | ok t => exact h.elim
  | ok found =>
    cases result' with
    | error e' => exact h.elim
    | ok t => rfl

end Session

namespace Timeline

/-- A call takes up the chain after an edit, or it moves the cursor and nothing else. -/
lemma step_cases (timeline : Timeline) (call : Session.Call) :
    (∃ edit next, (timeline.current.chain timeline.counter).apply edit = .ok next ∧
      timeline.step call = timeline.commit next) ∨
    ((timeline.step call).counter = timeline.counter ∧
      (timeline.step call).limit = timeline.limit) := by
  have hedit (e : Edit) (h : timeline.run call = timeline.edit e) :
      (∃ edit next, (timeline.current.chain timeline.counter).apply edit = .ok next ∧
        timeline.step call = timeline.commit next) ∨
      ((timeline.step call).counter = timeline.counter ∧
        (timeline.step call).limit = timeline.limit) := by
    rw [step, h, edit]
    cases ha : (timeline.current.chain timeline.counter).apply e with
    | error _ => exact .inr ⟨rfl, rfl⟩
    | ok next => exact .inl ⟨e, next, ha, rfl⟩
  cases call with
  | append kind => exact hedit (.append kind) rfl
  | appendNamed name =>
    cases hk : Kind.ofName name with
    | error e =>
      rw [step, run, hk]
      exact .inr ⟨rfl, rfl⟩
    | ok kind =>
      refine hedit (.append kind) ?_
      rw [run, hk]
      rfl
  | update id patch => exact hedit (.update timeline.strict id patch) rfl
  | remove id => exact hedit (.remove id) rfl
  | setInputDimension n => exact hedit (.setInputDimension n) rfl
  | place id placement => exact hedit (.place id placement) rfl
  | repropagate => exact hedit .repropagate rfl
  | undo =>
    rw [step, run]
    split_ifs <;> exact .inr ⟨rfl, rfl⟩
  | redo =>
    rw [step, run]
    split_ifs <;> exact .inr ⟨rfl, rfl⟩
  | source => exact .inr ⟨rfl, rfl⟩

/-- The counter of a timeline never goes back. -/
lemma counter_le_step {timeline : Timeline} (hc : timeline.counter ≤ maxCounter)
    (call : Session.Call) : timeline.counter ≤ (timeline.step call).counter := by
  rcases timeline.step_cases call with ⟨edit, next, ha, hs⟩ | ⟨hs, -⟩
  · rw [hs]
    exact (Chain.counter_le_of_apply ha hc).1
  · exact Nat.le_of_eq hs.symm

lemma limit_after (timeline : Timeline) (calls : List Session.Call) :
    (timeline.after calls).limit = timeline.limit := by
  induction calls generalizing timeline with
  | nil => rfl
  | cons call rest ih =>
    have hs : (timeline.step call).limit = timeline.limit := by
      rcases timeline.step_cases call with ⟨edit, next, -, hs⟩ | ⟨-, hs⟩
      · rw [hs]
        rfl
      · exact hs
    exact (ih (timeline.step call)).trans hs

end Timeline

/-- A session follows the timeline that starts with the same chain, whatever calls are made: it
shows what the cursor is on, under the counter of the timeline, the entries it can undo and redo
are the steps behind and ahead of the cursor, never more than were chosen, and the next call has
the same outcome. Only `source` is told apart, which may fail in a session and moves neither. -/
theorem session_follows_timeline (chain : Chain) (config : Config)
    (counter_le : chain.nextId ≤ maxCounter) (calls : List Session.Call) :
    let session := (Session.ofChain chain config).after calls
    let timeline := (Timeline.start chain config).after calls
    session.chain = timeline.current.chain timeline.counter ∧
    session.history.undoCount = timeline.cursor ∧
    session.history.undoCount + 1 + session.history.redoCount = timeline.views.length ∧
    session.history.undoCount + session.history.redoCount ≤ config.maxUndoLevels ∧
    ∀ call, timeline.counter ≤ (timeline.step call).counter ∧
      (call ≠ .source → Session.outcome (session.run call) = Session.outcome (timeline.run call)) := by
  intro session timeline
  have h : session.Tracks timeline := (Session.tracks_start config counter_le).after calls
  have hlimit : session.history.limit = config.maxUndoLevels :=
    h.limit.symm.trans (Timeline.limit_after (Timeline.start chain config) calls)
  refine ⟨h.chain_eq, h.cursor.symm, h.length_views, hlimit ▸ h.room, ?_⟩
  intro call
  exact ⟨Timeline.counter_le_step h.counter_le call, fun hc => (h.run hc).outcome_eq⟩

/-- Where one step is kept, two appends leave one of them to undo, and then the cursor is at the
end of the list. -/
theorem session_follows_timeline_one_step :
    let calls : List Session.Call := [.append .dense, .append .dropout, .undo]
    let session := (Session.ofChain (Chain.new 784) { maxUndoLevels := 1 }).after calls
    let timeline := (Timeline.start (Chain.new 784) { maxUndoLevels := 1 }).after calls
    (Chain.new 784).nextId ≤ maxCounter ∧ timeline.cursor = 0 ∧ timeline.views.length = 2 ∧
    session.chain = timeline.current.chain timeline.counter ∧
    session.history.undoCount = timeline.cursor ∧
    Session.outcome (session.run .undo) = .error .nothingToUndo := by
  intro calls session timeline
  have h := session_follows_timeline (Chain.new 784) { maxUndoLevels := 1 } (by decide) calls
  have hundo := (h.2.2.2.2 .undo).2 (by simp)
  exact ⟨by decide, by decide +kernel, by decide +kernel, h.1, h.2.1, hundo.trans (by decide +kernel)⟩

end LayerChain
