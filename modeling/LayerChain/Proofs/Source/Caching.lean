import LayerChain.Proofs.Model.Texts
import LayerChain.Proofs.Results
import LayerChain.Source.Cache

/-!
# Remembered sources are the generated ones

A key says which generator and which model it belongs to: hashes are of one length, so whatever
stands in a class name, the end of a key is the hash (`SourceCache.key_unique`). A cache that keeps
sources under their own keys only is `Sound`; every request leaves it so (`Sound.next`), and a sound
cache answers like the generator (`Sound.fetch`, `Sound.answers`).

For the answers it is assumed of the models that occur that neither the texts of their floating-point
numbers nor the digests of their texts collide (`NoCollisions`).
-/

namespace LayerChain

/-! ## Digests -/

namespace Sha256

lemma length_hexWord (w : UInt32) : (hexWord w).length = 8 := by simp [hexWord]

/-- A digest has eight digits for each word of the state. -/
lemma length_hex (message : List UInt8) : (hex message).toList.length = 64 := by
  rw [hex, String.toList_ofList]
  simp [State.words, length_hexWord]

end Sha256

lemma Model.length_hash (model : Model) : model.hash.toList.length = 64 := Sha256.length_hex _

/-- Of some models, neither the texts of their numbers nor the digests of their texts collide. -/
structure NoCollisions (models : List Model) : Prop where
  /-- Different floating-point numbers have different texts. -/
  texts : TextsDiffer .document (models.flatMap Model.floats)
  /-- Different texts have different digests. -/
  hashes : ∀ m ∈ models, ∀ n ∈ models, m.hash = n.hash → m.text = n.text

/-- Models with the same hash are the same. -/
lemma NoCollisions.hash_unique {models : List Model} (h : NoCollisions models) {m n : Model}
    (hm : m ∈ models) (hn : n ∈ models) (hhash : m.hash = n.hash) : m = n := by
  have hfloats : ∀ k ∈ models, k.floats ⊆ models.flatMap Model.floats :=
    fun k hk x hx => List.mem_flatMap.2 ⟨k, hk, hx⟩
  exact Model.text_unique h.texts (hfloats m hm) (hfloats n hn) (h.hashes m hm n hn hhash)

lemma SourceTable.entries_erase_subset (table : SourceTable) (key : String) :
    (table.erase key).entries ⊆ table.entries := List.filter_subset_self _

namespace SourceCache

/-! ## Keys -/

/-- Generators and models with the same key are the same generator, and models of one hash. -/
lemma key_unique {g g' : Generator} {m m' : Model} (h : key g m = key g' m') :
    g = g' ∧ m.hash = m'.hash := by
  have hchars := congrArg String.toList h
  simp only [key, Generator.fingerprint, String.toList_append] at hchars
  -- class names may hold colons, so the key is cut from its end
  have hlength : m.hash.toList.length = m'.hash.toList.length := by
    rw [m.length_hash, m'.length_hash]
  obtain ⟨hfingerprint, hhash⟩ := List.append_inj' hchars hlength
  have hname : g.className.toList = g'.className.toList :=
    List.append_cancel_left (List.append_cancel_right hfingerprint)
  obtain ⟨name⟩ := g
  obtain ⟨name'⟩ := g'
  exact ⟨congrArg Generator.mk (String.toList_inj.1 hname), String.toList_inj.1 hhash⟩

/-! ## Requests -/

/-- What can be asked of a cache. -/
inductive Request where
  | fetch (generator : Generator) (model : Model)
  | clear

namespace Request

/-- The model whose source is asked for, if one is. -/
def model? : Request → Option Model
  | .fetch _ model => some model
  | .clear => none

/-- What generating the source that is asked for gives, if one is asked for. -/
def generated? : Request → Option (Except Error String)
  | .fetch generator model => some (generator.generate model)
  | .clear => none

end Request

/-- What a cache answers to a request, if a source is asked for. -/
def answer? (cache : SourceCache) : Request → Option (Except Error String)
  | .fetch generator model => some ((cache.fetch generator model).map Prod.fst)
  | .clear => none

/-- The cache after a request. A request that fails changes nothing. -/
def after (cache : SourceCache) : Request → SourceCache
  | .fetch generator model =>
    match cache.fetch generator model with
    | .ok (_, next) => next
    | .error _ => cache
  | .clear => cache.clear

/-- What a cache answers to requests that come one after the other. -/
def answers (cache : SourceCache) : List Request → List (Option (Except Error String))
  | [] => []
  | request :: requests => cache.answer? request :: (cache.after request).answers requests

/-! ## Sound caches -/

/-- Every source that is kept is what its key's generator makes of its key's model. -/
def Sound (models : List Model) (cache : SourceCache) : Prop :=
  ∀ e ∈ cache.entries, ∃ g, ∃ m ∈ models, e.1 = key g m ∧ g.generate m = .ok e.2

lemma sound_bounded (models : List Model) (capacity : Nat) : Sound models (bounded capacity) := by
  simp [Sound, bounded, entries, SourceTable.empty]

lemma sound_clear (models : List Model) (cache : SourceCache) : Sound models cache.clear := by
  simp [Sound, clear, entries, SourceTable.empty]

/-- What is left after giving up sources was there before. -/
lemma entries_giveUp_subset (capacity : Nat) (table : SourceTable) (order : List String) :
    (giveUp capacity table order).1.entries ⊆ table.entries := by
  induction order generalizing table with
  | nil => exact List.Subset.refl _
  | cons oldest order ih =>
    rw [giveUp]
    split_ifs
    · exact List.Subset.trans (ih _) (table.entries_erase_subset oldest)
    · exact List.Subset.refl _

namespace Sound

variable {models : List Model} {cache : SourceCache} {g : Generator} {m : Model} {s : String}

/-- A source that is found is the generated one. -/
lemma generate_eq (h : Sound models cache) (hcollisions : NoCollisions models) (hm : m ∈ models)
    (hs : cache.get? (key g m) = some s) : g.generate m = .ok s := by
  obtain ⟨e, he, rfl⟩ := Option.map_eq_some_iff.1 hs
  have hfound := List.find?_some he
  have hkey : e.1 = key g m := beq_iff_eq.1 hfound
  obtain ⟨g', m', hm', hkey', hgenerate⟩ := h e (List.mem_of_find?_eq_some he)
  obtain ⟨rfl, hhash⟩ := key_unique (hkey'.symm.trans hkey)
  obtain rfl := hcollisions.hash_unique hm' hm hhash
  exact hgenerate

/-- Giving up entries and putting a generated source behind the others leaves a cache sound. -/
lemma kept (h : Sound models cache) (hm : m ∈ models) (hs : g.generate m = .ok s)
    {next : SourceCache} {entries : List (String × String)} (hentries : entries ⊆ cache.entries)
    (hnext : next.entries = entries ++ [(key g m, s)]) : Sound models next := by
  intro e he
  rw [hnext] at he
  rcases List.mem_append.1 he with he | he
  · exact h e (hentries he)
  · obtain rfl := List.mem_singleton.1 he
    exact ⟨g, m, hm, rfl, hs⟩

/-- A request for a source leaves the cache sound. -/
lemma next (h : Sound models cache) (hm : m ∈ models) {next : SourceCache}
    (hfetch : cache.fetch g m = .ok (s, next)) : Sound models next := by
  rw [SourceCache.fetch, supply] at hfetch
  cases hfound : cache.get? (key g m) with
  | some found =>
    rw [hfound] at hfetch
    cases hfetch
    exact h
  | none =>
    rw [hfound] at hfetch
    obtain ⟨_, hs, hnext⟩ := map_eq_ok.1 hfetch
    cases hnext
    have hkept := List.Subset.trans (SourceTable.entries_erase_subset _ (key g m))
      (entries_giveUp_subset cache.capacity cache.table cache.order)
    exact h.kept hm hs hkept rfl

/-- A request for a source gives what generating it gives. -/
theorem fetch (h : Sound models cache) (hcollisions : NoCollisions models) (hm : m ∈ models)
    (g : Generator) : (cache.fetch g m).map Prod.fst = g.generate m := by
  rw [SourceCache.fetch, supply]
  cases hfound : cache.get? (key g m) with
  | some s => exact (h.generate_eq hcollisions hm hfound).symm
  | none =>
    dsimp only
    cases g.generate m <;> rfl

/-- A sound cache answers a request like the generator, and is sound after it. -/
lemma step (h : Sound models cache) (hcollisions : NoCollisions models) {request : Request}
    (hm : ∀ m, request.model? = some m → m ∈ models) :
    cache.answer? request = request.generated? ∧ Sound models (cache.after request) := by
  cases request with
  | clear => exact ⟨rfl, sound_clear models cache⟩
  | fetch g m =>
    refine ⟨congrArg some (h.fetch hcollisions (hm m rfl) g), ?_⟩
    rw [after]
    cases hfetch : cache.fetch g m with
    | error e => exact h
    | ok found => exact h.next (hm m rfl) hfetch

/-- A sound cache answers all requests like the generators. -/
theorem answers (h : Sound models cache) (hcollisions : NoCollisions models)
    {requests : List Request} (hm : requests.filterMap Request.model? ⊆ models) :
    cache.answers requests = requests.map Request.generated? := by
  induction requests generalizing cache with
  | nil => rfl
  | cons request requests ih =>
    have hfirst : ∀ m, request.model? = some m → m ∈ models :=
      fun m hm' => hm (List.mem_filterMap.2 ⟨request, List.mem_cons_self, hm'⟩)
    have hrest : requests.filterMap Request.model? ⊆ models := by
      intro m hm'
      obtain ⟨r, hr, hmodel⟩ := List.mem_filterMap.1 hm'
      exact hm (List.mem_filterMap.2 ⟨r, List.mem_cons_of_mem _ hr, hmodel⟩)
    obtain ⟨hanswer, hnext⟩ := h.step hcollisions hfirst
    rw [SourceCache.answers, List.map_cons, hanswer, ih hnext hrest]

end Sound

end SourceCache

end LayerChain
