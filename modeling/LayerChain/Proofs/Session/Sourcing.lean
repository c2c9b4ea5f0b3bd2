import LayerChain.Proofs.Session.Calls
import LayerChain.Proofs.Source.Caching

/-!
# Sources that a session gives

A session remembers sources under its own generator, which no call changes, and only a look at the
source touches what is remembered. So the cache of a session stays sound along every run, and the
source of a session is the generated one (`remembered_sources_transparent`).
-/

namespace LayerChain

namespace Session

open SourceCache (Sound)

/-- The model whose source a call asks for, if it asks for one. -/
def asked (session : Session) : Call → List Model
  | .source => [session.model]
  | _ => []

/-- The models whose sources a list of calls asks for. -/
def sourced (session : Session) : List Call → List Model
  | [] => []
  | call :: calls => session.asked call ++ (session.step call).sourced calls

variable {session next : Session} {reply : Reply} {models : List Model}

lemma sourced_append (session : Session) (calls calls' : List Call) :
    session.sourced (calls ++ calls') =
      session.sourced calls ++ (session.after calls).sourced calls' := by
  induction calls generalizing session with
  | nil => rfl
  | cons call calls ih =>
    rw [List.cons_append, sourced, sourced, ih, List.append_assoc]
    rfl

/-! ## Calls that are no look at the source -/

/-- A session has the generator and the remembered sources of another one. -/
structure KeepsSources (session next : Session) : Prop where
  generator : next.generator = session.generator
  cache : next.cache = session.cache

lemma keepsSources_of_edit (edit : Edit) (answer : Reply)
    (h : (session.edit edit).map (fun s => (answer, s)) = .ok (reply, next)) :
    session.KeepsSources next := by
  obtain ⟨s, hs, h⟩ := map_eq_ok.1 h
  obtain ⟨chain, -, hcommit⟩ := bind_eq_ok.1 hs
  cases hcommit
  cases h
  exact ⟨rfl, rfl⟩

/-- A call that is no look at the source leaves the remembered sources as they are. -/
lemma keepsSources_of_run {call : Call} (hc : call ≠ .source)
    (h : session.run call = .ok (reply, next)) : session.KeepsSources next := by
  cases hasked : session.editOf call with
  | some edit =>
    obtain ⟨answer, hrun, -⟩ := exists_reply_of_editOf hasked
    rw [hrun] at h
    exact keepsSources_of_edit edit answer h
  | none =>
    rcases cases_of_editOf_eq_none hasked with ⟨name, rfl, hname⟩ | rfl | rfl | rfl
    · rw [run, hname] at h
      cases h
    · obtain ⟨entry, -, h⟩ := bind_eq_ok.1 h
      cases h
      exact ⟨rfl, rfl⟩
    · obtain ⟨entry, -, h⟩ := bind_eq_ok.1 h
      cases h
      exact ⟨rfl, rfl⟩
    · exact absurd rfl hc

lemma keepsSources_step {call : Call} (hc : call ≠ .source) :
    session.KeepsSources (session.step call) := by
  rw [step]
  cases h : session.run call with
  | error e => exact ⟨rfl, rfl⟩
  | ok found => exact keepsSources_of_run hc h

/-! ## Looks at the source -/

/-- With a sound cache, the source of a session is the generated one. -/
lemma source_eq (h : Sound models session.cache) (hcollisions : NoCollisions models)
    (hm : session.model ∈ models) : (session.run .source).map Prod.fst =
      (session.generator.generate session.model).map .source := by
  rw [← h.fetch hcollisions hm session.generator, run]
  cases session.cache.fetch session.generator session.model with
  | error e => rfl
  | ok found => rfl

/-- A call keeps the generator of a session and leaves the cache sound. -/
lemma sound_step (h : Sound models session.cache) {call : Call}
    (hm : session.asked call ⊆ models) : (session.step call).generator = session.generator ∧
      Sound models (session.step call).cache := by
  by_cases hc : call = .source
  · subst hc
    rw [step, run]
    cases hfetch : session.cache.fetch session.generator session.model with
    | error e => exact ⟨rfl, h⟩
    | ok found => exact ⟨rfl, h.next (hm List.mem_cons_self) hfetch⟩
  · have hkeeps : session.KeepsSources (session.step call) := keepsSources_step hc
    rw [hkeeps.cache]
    exact ⟨hkeeps.generator, h⟩

/-- Any number of calls keep the generator of a session and leave the cache sound. -/
theorem sound_after (h : Sound models session.cache) {calls : List Call}
    (hm : session.sourced calls ⊆ models) :
    (session.after calls).generator = session.generator ∧
      Sound models (session.after calls).cache := by
  induction calls generalizing session with
  | nil => exact ⟨rfl, h⟩
  | cons call calls ih =>
    obtain ⟨hasked, hrest⟩ := List.append_subset.1 hm
    obtain ⟨hgenerator, hstep⟩ := sound_step h hasked
    obtain ⟨hafter, hsound⟩ := ih hstep hrest
    exact ⟨hafter.trans hgenerator, hsound⟩

end Session

/-- Remembered sources are the generated ones. A cache of any capacity answers each of any requests
with what generating gives, and the source of a session is, after any calls, the one that its
generator makes of its chain. Of the models that occur it is assumed that nothing collides. -/
theorem remembered_sources_transparent :
    (∀ (capacity : Nat) (requests : List SourceCache.Request),
      NoCollisions (requests.filterMap SourceCache.Request.model?) →
        (SourceCache.bounded capacity).answers requests =
          requests.map SourceCache.Request.generated?) ∧
    ∀ (chain : Chain) (config : Config) (calls : List Session.Call),
      NoCollisions ((Session.ofChain chain config).sourced (calls ++ [.source])) →
        (((Session.ofChain chain config).after calls).run .source).map Prod.fst =
          ((⟨config.className⟩ : Generator).generate
            ((Session.ofChain chain config).after calls).model).map .source := by
  refine ⟨?_, ?_⟩
  · intro capacity requests hcollisions
    have hsound : SourceCache.Sound _ (SourceCache.bounded capacity) :=
      SourceCache.sound_bounded (requests.filterMap SourceCache.Request.model?) capacity
    exact hsound.answers hcollisions (List.Subset.refl _)
  · intro chain config calls hcollisions
    rw [Session.sourced_append] at hcollisions
    -- the cache is sound for all models that are ever looked at, the last one included
    have hstart : SourceCache.Sound ((Session.ofChain chain config).sourced calls ++
        ((Session.ofChain chain config).after calls).sourced [.source])
        (Session.ofChain chain config).cache :=
      SourceCache.sound_bounded _ config.sourceCacheEntries
    have hsound := Session.sound_after hstart (List.subset_append_left _ _)
    have hlast : ((Session.ofChain chain config).after calls).model ∈
        (Session.ofChain chain config).sourced calls ++
          ((Session.ofChain chain config).after calls).sourced [.source] :=
      List.mem_append_right _ List.mem_cons_self
    rw [Session.source_eq hsound.2 hcollisions hlast, hsound.1]
    rfl

/-- Requests with colons in class names: a source again, one that gives way, and one that fails. -/
def colonRequests : List SourceCache.Request := [
  .fetch ⟨"A:B"⟩ ⟨4, []⟩,
  .fetch ⟨"A:B"⟩ ⟨4, []⟩,
  .fetch ⟨"A"⟩ ⟨4, []⟩,
  .clear,
  .fetch ⟨"A"⟩ ⟨4, [⟨"Conv3d", .ofList [("p", Catalog.real 5 (-1)), ("q", .auto)]⟩]⟩]

/-- A configuration with a colon in its class name. -/
def colonConfig : Config where
  className := "A:B"

/-- Class names with colons, a full cache, and a session in which an edit is undone. -/
theorem remembered_sources_transparent_on_colons :
    NoCollisions (colonRequests.filterMap SourceCache.Request.model?) ∧
    (SourceCache.bounded 1).answers colonRequests =
      colonRequests.map SourceCache.Request.generated? ∧
    NoCollisions ((Session.ofChain (Chain.new 4) colonConfig).sourced
      ([.setInputDimension 784, .source, .undo] ++ [.source])) ∧
    (((Session.ofChain (Chain.new 4) colonConfig).after
      [.setInputDimension 784, .source, .undo]).run .source).map Prod.fst =
        ((⟨"A:B"⟩ : Generator).generate ((Session.ofChain (Chain.new 4) colonConfig).after
          [.setInputDimension 784, .source, .undo]).model).map .source := by
  have hrequests : NoCollisions (colonRequests.filterMap SourceCache.Request.model?) := by
    constructor
    · unfold TextsDiffer
      decide +kernel
    · decide +kernel
  have hcalls : NoCollisions ((Session.ofChain (Chain.new 4) colonConfig).sourced
      ([.setInputDimension 784, .source, .undo] ++ [.source])) := by
    constructor
    · unfold TextsDiffer
      decide +kernel
    · decide +kernel
  exact ⟨hrequests, remembered_sources_transparent.1 1 colonRequests hrequests, hcalls,
    remembered_sources_transparent.2 (Chain.new 4) colonConfig _ hcalls⟩

end LayerChain
