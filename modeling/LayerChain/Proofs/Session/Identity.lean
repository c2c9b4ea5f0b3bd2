import LayerChain.Proofs.Chain.Numbering
import LayerChain.Proofs.Session.Calls
import Mathlib.Algebra.Group.Nat.Defs

/-!
# Ids are never used again

A `Ledger` is the account of a run of a session: all the chains it has held so far, also those
that its history has forgotten, and all the ids it has handed out. Every id in the account is
below the session's counter, and the present chain has that counter, so the next append hands out
an id that is nowhere in the account. Each call keeps the account in order, as long as the counter
is not at its end.
-/

namespace LayerChain

namespace Session

/-- The ids that a list of calls hands out, in order. -/
def issued (session : Session) : List Call → List Nat
  | [] => []
  | call :: rest => (session.issuedBy call).toList ++ (session.step call).issued rest

/-- All chains that a session holds at some point of a list of calls. -/
def snapshots (session : Session) : List Call → List Chain
  | [] => session.held
  | call :: rest => session.held ++ (session.step call).snapshots rest

/-- An account of the chains that a session has held and of the ids it has handed out, `base`
being the counter it started with. -/
structure Ledger (base : Nat) (chains : List Chain) (ids : List Nat) (session : Session) :
    Prop where
  held : session.held ⊆ chains
  current : session.chain.nextId = session.counter
  counter_le : session.counter ≤ base + ids.length
  numbered : ∀ chain ∈ chains, chain.Numbered
  nextId_le : ∀ chain ∈ chains, chain.nextId ≤ session.counter
  /-- An id names layers of one kind in all chains. -/
  kind_eq : ∀ c ∈ chains, ∀ d ∈ chains, ∀ id k k',
    (id, k) ∈ c.skeleton → (id, k') ∈ d.skeleton → k = k'
  nodup : ids.Nodup
  lt_counter : ∀ id ∈ ids, id < session.counter

namespace Ledger

variable {base : Nat} {chains : List Chain} {ids : List Nat} {session : Session}

/-- The account of a session that starts. -/
lemma start {chain : Chain} (config : Config) (hc : chain.Numbered) :
    Ledger chain.nextId (ofChain chain config).held [] (ofChain chain config) where
  held := List.Subset.refl _
  current := rfl
  counter_le := Nat.le_refl _
  numbered c hm := by
    obtain rfl := List.mem_singleton.1 hm
    exact hc
  nextId_le c hm := by
    obtain rfl := List.mem_singleton.1 hm
    exact Nat.le_refl _
  kind_eq c hm d hm' id k k' hk hk' := by
    obtain rfl := List.mem_singleton.1 hm
    obtain rfl := List.mem_singleton.1 hm'
    exact Chain.Numbered.kind_eq hc hk hk'
  nodup := List.nodup_nil
  lt_counter id hid := by cases hid

/-- An account may leave out what it lists twice, or list it twice. -/
lemma mono {chains' : List Chain} (h : Ledger base chains ids session) (hs : chains' ⊆ chains)
    (hh : session.held ⊆ chains') : Ledger base chains' ids session where
  held := hh
  current := h.current
  counter_le := h.counter_le
  numbered c hm := h.numbered c (hs hm)
  nextId_le c hm := h.nextId_le c (hs hm)
  kind_eq c hm d hm' := h.kind_eq c (hs hm) d (hs hm')
  nodup := h.nodup
  lt_counter := h.lt_counter

/-- An account goes on with a session whose chain has no new layers but such as have new ids. -/
lemma add (h : Ledger base chains ids session) {after : Session} {new : List Nat}
    (held : after.held ⊆ after.chain :: chains) (numbered : after.chain.Numbered)
    (current : after.chain.nextId = after.counter) (le : session.counter ≤ after.counter)
    (counter_le : after.counter ≤ session.counter + new.length) (nodup : new.Nodup)
    (fresh : ∀ id ∈ new, session.counter ≤ id ∧ id < after.counter)
    (layers : ∀ id k, (id, k) ∈ after.chain.skeleton →
      session.counter ≤ id ∨ ∃ c ∈ chains, (id, k) ∈ c.skeleton) :
    Ledger base (after.chain :: chains) (ids ++ new) after where
  held := held
  current := current
  counter_le := by
    have := h.counter_le
    rw [List.length_append]
    omega
  numbered c hm := by
    rcases List.mem_cons.1 hm with rfl | hm
    · exact numbered
    · exact h.numbered c hm
  nextId_le c hm := by
    rcases List.mem_cons.1 hm with rfl | hm
    · exact Nat.le_of_eq current
    · exact Nat.le_trans (h.nextId_le c hm) le
  kind_eq := by
    -- a layer of the present chain and one of an older chain that share their id
    have hold {d : Chain} (hd : d ∈ chains) {id : Nat} {k k' : Kind}
        (hk : (id, k) ∈ after.chain.skeleton) (hk' : (id, k') ∈ d.skeleton) : k = k' := by
      rcases layers id k hk with hid | ⟨c, hc, hk⟩
      · have hlt := (h.numbered d hd).lt_of_mem_skeleton hk'
        have hle := h.nextId_le d hd
        omega
      · exact h.kind_eq c hc d hd id k k' hk hk'
    intro c hc d hd id k k' hk hk'
    rcases List.mem_cons.1 hc with rfl | hc
    · rcases List.mem_cons.1 hd with rfl | hd
      · exact numbered.kind_eq hk hk'
      · exact hold hd hk hk'
    · rcases List.mem_cons.1 hd with rfl | hd
      · exact (hold hc hk' hk).symm
      · exact h.kind_eq c hc d hd id k k' hk hk'
  nodup := by
    rw [List.nodup_append]
    refine ⟨h.nodup, nodup, ?_⟩
    intro a ha b hb
    have := h.lt_counter a ha
    have := (fresh b hb).1
    omega
  lt_counter id hid := by
    rcases List.mem_append.1 hid with hid | hid
    · exact Nat.lt_of_lt_of_le (h.lt_counter id hid) le
    · exact (fresh id hid).2

/-- An account goes on with a session that keeps the counter and whose chain has no layers but
those of a chain in the account. -/
lemma add_known (h : Ledger base chains ids session) {after : Session} {chain : Chain}
    (mem : chain ∈ chains) (held : after.held ⊆ after.chain :: chains)
    (numbered : after.chain.Numbered) (current : after.chain.nextId = after.counter)
    (counter_eq : after.counter = session.counter)
    (layers : after.chain.skeleton ⊆ chain.skeleton) :
    Ledger base (after.chain :: chains) ids after := by
  have hle : after.counter ≤ session.counter + ([] : List Nat).length := Nat.le_of_eq counter_eq
  have hadd := h.add held numbered current (Nat.le_of_eq counter_eq.symm) hle List.nodup_nil
    (by simp) fun id k hk => .inr ⟨chain, mem, layers hk⟩
  rw [List.append_nil] at hadd
  exact hadd

/-- The present chain is in the account. -/
lemma chain_mem (h : Ledger base chains ids session) : session.chain ∈ chains :=
  h.held List.mem_cons_self

/-- The history after an edit holds nothing but what the session held and the new chain. -/
lemma held_commit (h : Ledger base chains ids session) (description : String) (next : Chain) :
    (session.commit description next).held ⊆ next :: chains :=
  List.Subset.trans (Session.held_commit session description next)
    (List.cons_subset_cons _ h.held)

/-- An edit keeps the account, unless the counter is at its end: an append hands out the id at the
counter, and no other edit has an id of its own. -/
lemma commit (h : Ledger base chains ids session) (hc : session.counter < maxCounter) {edit : Edit}
    {next : Chain} (success : session.chain.apply edit = .ok next) (description : String) :
    Ledger base (next :: chains) (ids ++ (session.chain.issuedId? edit).toList)
      (session.commit description next) := by
  have hcur := h.current
  have hnext := (h.numbered _ h.chain_mem).apply success (hcur ▸ hc)
  have hchain : (session.commit description next).chain = next := rfl
  have hcounter : (session.commit description next).counter =
      max session.counter next.nextId := rfl
  have hheld := h.held_commit description next
  obtain ⟨kind, hissued, hskeleton, hcount⟩ | ⟨hissued, hskeleton, hcount⟩ :=
    Chain.apply_cases success
  · rw [hissued, hcur]
    refine h.add hheld hnext ?_ ?_ ?_ (List.pairwise_singleton _ _) ?_ ?_
    · rw [hchain, hcounter]
      omega
    · rw [hcounter]
      exact Nat.le_max_left _ _
    · simp only [hcounter, Option.toList_some, List.length_singleton]
      omega
    · intro id hid
      obtain rfl := List.mem_singleton.1 hid
      rw [hcounter]
      omega
    · intro id k hk
      rw [hchain, hskeleton, List.mem_append, List.mem_singleton, Prod.mk.injEq] at hk
      rcases hk with hk | ⟨rfl, -⟩
      · exact .inr ⟨session.chain, h.chain_mem, hk⟩
      · exact .inl (Nat.le_of_eq hcur.symm)
  · rw [hissued, Option.toList_none, List.append_nil]
    refine h.add_known h.chain_mem hheld hnext ?_ ?_ hskeleton.subset
    · rw [hchain, hcounter]
      omega
    · rw [hcounter]
      omega

/-- Each call keeps the account, unless the counter is at its end. -/
theorem step (h : Ledger base chains ids session) (call : Call)
    (hc : session.counter < maxCounter) :
    Ledger base ((session.step call).chain :: chains) (ids ++ (session.issuedBy call).toList)
      (session.step call) := by
  generalize session.step call = after, session.issuedBy call = issued,
    effect_step session call = effect
  cases effect with
  | edited success _ => exact h.commit hc success _
  | @restored chain history mem subset =>
    have hm : chain ∈ chains := h.held (List.mem_cons_of_mem _ mem)
    rw [Option.toList_none, List.append_nil]
    refine h.add_known hm ?_ ((h.numbered chain hm).raiseCounter session.counter)
      (Nat.max_eq_right (h.nextId_le chain hm)) rfl (List.Subset.refl _)
    intro c hc
    rcases List.mem_cons.1 hc with rfl | hc
    · exact List.mem_cons_self
    · exact List.mem_cons_of_mem _ (h.held (List.mem_cons_of_mem _ (subset hc)))
  | kept cache =>
    rw [Option.toList_none, List.append_nil]
    exact h.add_known h.chain_mem (List.Subset.trans h.held (List.subset_cons_self _ _))
      (h.numbered _ h.chain_mem) h.current rfl (List.Subset.refl _)

lemma held_subset_snapshots (session : Session) (calls : List Call) :
    session.held ⊆ session.snapshots calls := by
  cases calls with
  | nil => exact List.Subset.refl _
  | cons call rest => exact List.subset_append_left _ _

/-- A list of calls keeps the account, as long as the counter does not get to its end. -/
theorem after (h : Ledger base chains ids session) (calls : List Call)
    (room : base + (ids.length + (session.issued calls).length) < maxCounter) :
    Ledger base (chains ++ session.snapshots calls) (ids ++ session.issued calls)
      (session.after calls) := by
  induction calls generalizing session chains ids with
  | nil =>
    rw [issued, List.append_nil]
    refine h.mono ?_ (List.subset_append_right _ _)
    exact List.append_subset.2 ⟨List.Subset.refl _, h.held⟩
  | cons call rest ih =>
    rw [issued, List.length_append] at room
    have hcount := h.counter_le
    have hstep := h.step call (by omega)
    have hrest := ih hstep (by rw [List.length_append]; omega)
    rw [List.append_assoc] at hrest
    have hsnap := held_subset_snapshots (session.step call) rest
    refine hrest.mono ?_ (List.Subset.trans hrest.held ?_)
    · -- what the account lists twice is what the session held before the call
      refine List.append_subset.2 ⟨?_, List.append_subset.2 ⟨?_, List.subset_append_right _ _⟩⟩
      · exact List.Subset.trans (List.subset_cons_self _ _) (List.subset_append_left _ _)
      · exact List.Subset.trans h.held
          (List.Subset.trans (List.subset_cons_self _ _) (List.subset_append_left _ _))
    · refine List.append_subset.2 ⟨List.cons_subset.2 ⟨?_, List.subset_append_left _ _⟩, ?_⟩
      · exact List.mem_append_right _ (List.mem_append_right _ (hsnap List.mem_cons_self))
      · exact List.Subset.trans (List.subset_append_right _ _) (List.subset_append_right _ _)

/-- The next id that is handed out is not in the account. -/
lemma not_mem_of_issuedBy (h : Ledger base chains ids session) {call : Call} {id : Nat}
    (hi : session.issuedBy call = some id) : id ∉ ids ∧ ∀ c ∈ chains, id ∉ c.ids := by
  have hid : id = session.counter := by
    generalize session.step call = after, session.issuedBy call = issued,
      effect_step session call = effect at hi
    cases effect with
    | edited success _ =>
      rcases Chain.apply_cases success with ⟨kind, hn, -, -⟩ | ⟨hn, -, -⟩
      · rw [hn, Option.some.injEq] at hi
        exact hi.symm.trans h.current
      · rw [hn] at hi
        cases hi
    | restored mem subset => cases hi
    | kept cache => cases hi
  subst hid
  refine ⟨fun hm => Nat.lt_irrefl _ (h.lt_counter _ hm), ?_⟩
  intro c hc hm
  exact Nat.lt_irrefl _ (Nat.lt_of_lt_of_le ((h.numbered c hc).lt_nextId _ hm) (h.nextId_le c hc))

end Ledger

/-- Ids are never used again. In a session that starts with a new chain or with one that was read
from a document, as long as not too many layers are appended: the ids handed out are distinct, the
id that the next call hands out is new to all chains that the session has ever held, in each of
these the ids are distinct and below the counter, the present counter is the session's, and an id
names layers of the same kind wherever it occurs. -/
theorem ids_never_reused {chain : Chain} (config : Config) (initial : chain.Initial)
    (calls : List Call)
    (few : ((ofChain chain config).issued calls).length < 2 ^ 64 - 2 ^ 53) :
    let start := ofChain chain config
    let session := start.after calls
    (start.issued calls).Nodup ∧
    (∀ call id, session.issuedBy call = some id →
      id ∉ start.issued calls ∧ ∀ c ∈ start.snapshots calls, id ∉ c.ids) ∧
    (∀ c ∈ start.snapshots calls, c.ids.Nodup ∧ ∀ id ∈ c.ids, id < c.nextId) ∧
    session.chain.nextId = session.counter ∧
    ∀ c ∈ start.snapshots calls, ∀ d ∈ start.snapshots calls, ∀ l ∈ c.layers, ∀ m ∈ d.layers,
      l.id = m.id → l.kind = m.kind := by
  intro start session
  -- the counter starts within the ids, so this many appends do not take it to its end
  have hmax : chain.nextId ≤ 9007199254740991 := initial.nextId_le
  have hfew : (start.issued calls).length < 2 ^ 64 - 2 ^ 53 := few
  have hroom : chain.nextId + (([] : List Nat).length + (start.issued calls).length) < maxCounter := by
    rw [show maxCounter = 2 ^ 64 - 1 from rfl, List.length_nil]
    omega
  have h := (Ledger.start config initial.numbered).after calls hroom
  have hsub : start.snapshots calls ⊆ start.held ++ start.snapshots calls :=
    List.subset_append_right _ _
  rw [List.nil_append] at h
  refine ⟨h.nodup, ?_, ?_, h.current, ?_⟩
  · intro call id hi
    obtain ⟨hids, hchains⟩ := h.not_mem_of_issuedBy hi
    exact ⟨hids, fun c hc => hchains c (hsub hc)⟩
  · intro c hc
    exact ⟨(h.numbered c (hsub hc)).nodup, (h.numbered c (hsub hc)).lt_nextId⟩
  · intro c hc d hd l hl m hm hid
    have hl' : (l.id, l.kind) ∈ c.skeleton := List.mem_map.2 ⟨l, hl, rfl⟩
    have hm' : (l.id, m.kind) ∈ d.skeleton := List.mem_map.2 ⟨m, hm, by rw [hid]⟩
    exact h.kind_eq c (hsub hc) d (hsub hd) l.id l.kind m.kind hl' hm'

/-- After an append, an undo and another append, the undone id stays used up. -/
theorem ids_never_reused_after_undo :
    let calls : List Call := [.append .dense, .append .dropout, .undo, .append .flatten, .undo]
    let start := ofChain (Chain.new 784) {}
    (Chain.new 784).Initial ∧ (start.issued calls).length < 2 ^ 64 - 2 ^ 53 ∧
    start.issued calls = [1, 2, 3] ∧ (start.issued calls).Nodup ∧
    (start.after calls).issuedBy (.append .dense) = some 4 ∧ 4 ∉ start.issued calls := by
  intro calls start
  have hissued : start.issued calls = [1, 2, 3] := by decide +kernel
  have hfew : (start.issued calls).length < 2 ^ 64 - 2 ^ 53 := by
    rw [hissued]
    decide
  have h := ids_never_reused {} (.new 784) calls hfew
  have hnext : (start.after calls).issuedBy (.append .dense) = some 4 := by decide +kernel
  exact ⟨.new 784, hfew, hissued, h.1, hnext, (h.2.1 _ 4 hnext).1⟩

end Session

end LayerChain
