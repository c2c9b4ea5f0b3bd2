import LayerChain.Proofs.Catalog.Merging
import LayerChain.Proofs.Chain.Storing
import LayerChain.Proofs.Files.Projects
import LayerChain.Proofs.Json.Range

/-!
# Settings that are saved and loaded

A project that was saved is loaded with every setting read again: the layers keep their ids and the
settings their keys, and none of them is refused (`Chain.exists_reread`,
`Chain.setting?_of_reread`). A setting that is no floating-point number keeps its value. A
floating-point number is composed of its shortest digits, which does not give the number itself for
all of them (`set_float_drifts`). It does for those that are nearest to a short decimal, so for the
usual literals (`saved_settings_reread`).
-/

namespace LayerChain

/-- What is looked for in one of two lists that correspond is found in the other, too. -/
lemma find?_of_forall₂ {α β : Type} {R : α → β → Prop} {p : α → Bool} {q : β → Bool}
    (hR : ∀ a b, R a b → q b = p a) {as : List α} {bs : List β} (h : List.Forall₂ R as bs) {a : α}
    (ha : as.find? p = some a) : ∃ b, bs.find? q = some b ∧ R a b := by
  induction h with
  | nil => cases ha
  | @cons c d as bs hcd _ ih =>
    rw [List.find?_cons] at ha
    rw [List.find?_cons, hR c d hcd]
    cases hp : p c with
    | true =>
      rw [hp] at ha
      cases ha
      exact ⟨d, rfl, hcd⟩
    | false =>
      rw [hp] at ha
      exact ih ha

lemma map_eq_of_forall₂ {α β γ : Type} {R : α → β → Prop} {f : α → γ} {g : β → γ}
    (hR : ∀ a b, R a b → g b = f a) {as : List α} {bs : List β} (h : List.Forall₂ R as bs) :
    bs.map g = as.map f := by
  induction h with
  | nil => rfl
  | cons hab _ ih => rw [List.map_cons, List.map_cons, hR _ _ hab, ih]

/-! ## Values -/

/-- Every value that is written is read as some value. -/
theorem Json.exists_reread (v : Json) : ∃ w, v.reread = .ok w := by
  induction v using Json.induction with
  | null => exact ⟨_, rfl⟩
  | bool b => exact ⟨_, rfl⟩
  | whole n => exact ⟨_, rfl⟩
  | float x =>
    obtain ⟨y, hy⟩ := x.exists_reread
    exact ⟨.float y, map_eq_ok.2 ⟨y, hy, rfl⟩⟩
  | text s => exact ⟨_, rfl⟩
  | list items ih =>
    suffices ∃ values, rereadItems items = .ok values by
      obtain ⟨values, hvalues⟩ := this
      exact ⟨.list values, map_eq_ok.2 ⟨values, hvalues, rfl⟩⟩
    induction items with
    | nil => exact ⟨[], rfl⟩
    | cons v items ihitems =>
      obtain ⟨⟨w, hw⟩, hrest⟩ := List.forall_mem_cons.1 ih
      obtain ⟨values, hvalues⟩ := ihitems hrest
      exact ⟨w :: values, by rw [rereadItems, hw, hvalues]; rfl⟩
  | object members ih =>
    suffices ∃ values, rereadMembers members = .ok values by
      obtain ⟨values, hvalues⟩ := this
      exact ⟨.object values, map_eq_ok.2 ⟨values, hvalues, rfl⟩⟩
    induction members with
    | nil => exact ⟨[], rfl⟩
    | cons m members ihmembers =>
      obtain ⟨name, v⟩ := m
      obtain ⟨⟨w, hw⟩, hrest⟩ := List.forall_mem_cons.1 ih
      obtain ⟨values, hvalues⟩ := ihmembers hrest
      exact ⟨(name, w) :: values, by rw [rereadMembers, hw, hvalues]; rfl⟩

lemma SettingValue.exists_reread (v : SettingValue) : ∃ w, v.reread = .ok w := by
  cases v with
  | float x =>
    obtain ⟨y, hy⟩ := x.exists_reread
    exact ⟨.float y, map_eq_ok.2 ⟨y, hy, rfl⟩⟩
  | _ => exact ⟨_, rfl⟩

lemma SettingValue.reread_of_ne_float {v : SettingValue} (h : ∀ x, v ≠ .float x) :
    v.reread = .ok v := by
  cases v with
  | float x => exact absurd rfl (h x)
  | _ => rfl

/-! ## Settings -/

namespace Settings

variable {s t : Settings} {key : String} {v : SettingValue}

lemma exists_reread (s : Settings) : ∃ t, s.reread = .ok t := by
  have hread (e : String × SettingValue) : ∃ f, (e.2.reread.map fun v => (e.1, v)) = .ok f := by
    obtain ⟨w, hw⟩ := e.2.exists_reread
    exact ⟨(e.1, w), map_eq_ok.2 ⟨w, hw, rfl⟩⟩
  obtain ⟨es, hes⟩ := exists_mapM fun e _ => hread e
  exact ⟨ofList es, map_eq_ok.2 ⟨es, hes, rfl⟩⟩

/-- Settings that are read again keep their keys, and each value is read again. -/
lemma entries_of_reread (h : s.reread = .ok t) :
    List.Forall₂ (fun e f => f.1 = e.1 ∧ e.2.reread = .ok f.2) s.entries t.entries := by
  obtain ⟨es, hes, rfl⟩ := map_eq_ok.1 h
  have hread : List.Forall₂ (fun e f => f.1 = e.1 ∧ e.2.reread = .ok f.2) s.entries es := by
    refine (mapM_eq_ok_iff.1 hes).imp fun e f hf => ?_
    obtain ⟨w, hw, rfl⟩ := map_eq_ok.1 hf
    exact ⟨rfl, hw⟩
  have hkeys : es.map Prod.fst = s.entries.map Prod.fst :=
    map_eq_of_forall₂ (fun e f hef => hef.1) hread
  have hentries := ofList_entries ⟨es, hkeys ▸ s.nodup⟩
  rw [hentries]
  exact hread

lemma get?_of_reread (h : s.reread = .ok t) (hv : s.get? key = some v) :
    ∃ w, v.reread = .ok w ∧ t.get? key = some w := by
  obtain ⟨e, he, rfl⟩ := Option.map_eq_some_iff.1 hv
  obtain ⟨f, hf, -, hread⟩ := find?_of_forall₂ (q := fun f => f.1 == key)
    (fun e f hef => by rw [hef.1]) (entries_of_reread h) he
  exact ⟨f.2, hread, by rw [get?, hf, Option.map_some]⟩

end Settings

/-! ## Chains -/

lemma Layer.exists_reread (l : Layer) : ∃ m, l.reread = .ok m := by
  obtain ⟨settings, hsettings⟩ := l.settings.exists_reread
  have hplacement : ∃ placement, rereadPlacement l.placement = .ok placement := by
    cases l.placement with
    | none => exact ⟨none, rfl⟩
    | some p =>
      obtain ⟨q, hq⟩ := p.exists_reread
      exact ⟨placementRead (some q), map_eq_ok.2 ⟨q, hq, rfl⟩⟩
  obtain ⟨placement, hplacement⟩ := hplacement
  exact ⟨_, bind_eq_ok.2 ⟨settings, hsettings, bind_eq_ok.2 ⟨placement, hplacement, rfl⟩⟩⟩

lemma Layer.of_reread {l m : Layer} (h : l.reread = .ok m) :
    m.id = l.id ∧ l.settings.reread = .ok m.settings := by
  obtain ⟨settings, hsettings, h⟩ := bind_eq_ok.1 h
  obtain ⟨placement, -, h⟩ := bind_eq_ok.1 h
  cases h
  exact ⟨rfl, hsettings⟩

namespace Chain

variable {chain read : Chain} {id : Nat} {key : String} {v : SettingValue}

/-- The value of a key in the settings of a layer. -/
def setting? (chain : Chain) (id : Nat) (key : String) : Option SettingValue :=
  (chain.get? id).bind fun l => l.settings.get? key

/-- Every chain that is written is read as some chain. -/
theorem exists_reread (chain : Chain) : ∃ read, chain.reread = .ok read := by
  obtain ⟨layers, hlayers⟩ := exists_mapM fun l (_ : l ∈ chain.layers) => l.exists_reread
  exact ⟨_, bind_eq_ok.2 ⟨layers, hlayers, rfl⟩⟩

/-- The chain of one layer with one setting. -/
def single (kind : Kind) (key : String) (v : SettingValue) : Chain :=
  ⟨defaultInputDimension, [⟨1, kind, .ofList [(key, v)], none⟩], 2⟩

lemma loadable_single {depth : Nat} (kind : Kind) (key : String) (v : SettingValue) :
    (single kind key v).Loadable depth := by
  refine ⟨⟨List.nodup_singleton 1, ?_, Nat.two_pos⟩, show 2 ≤ Layer.maxId by decide, ?_⟩
  · simp [single, ids]
  · simp [single]

lemma layers_of_reread (h : chain.reread = .ok read) :
    read.nextId = chain.nextId ∧
      List.Forall₂ (fun l m => l.reread = .ok m) chain.layers read.layers := by
  obtain ⟨layers, hlayers, h⟩ := bind_eq_ok.1 h
  cases h
  exact ⟨rfl, mapM_eq_ok_iff.1 hlayers⟩

lemma ids_of_reread (h : chain.reread = .ok read) : read.ids = chain.ids :=
  map_eq_of_forall₂ (fun _ _ hlm => (Layer.of_reread hlm).1) (f := Layer.id) (g := Layer.id)
    (layers_of_reread h).2

lemma Numbered.of_reread (hn : chain.Numbered) (h : chain.reread = .ok read) : read.Numbered := by
  have hids := ids_of_reread h
  have hcounter := (layers_of_reread h).1
  exact ⟨hids ▸ hn.nodup, hids ▸ hcounter ▸ hn.lt_nextId, hcounter ▸ hn.nextId_pos⟩

/-- The settings of a layer are read again as those of the layer of the same id. -/
theorem setting?_of_reread (h : chain.reread = .ok read) (hv : chain.setting? id key = some v) :
    ∃ w, v.reread = .ok w ∧ read.setting? id key = some w := by
  obtain ⟨l, hl, hv⟩ := Option.bind_eq_some_iff.1 hv
  obtain ⟨m, hm, hread⟩ := find?_of_forall₂ (q := fun m => m.id == id)
    (fun l m hlm => by rw [(Layer.of_reread hlm).1]) (layers_of_reread h).2 hl
  obtain ⟨w, hw, hget⟩ := Settings.get?_of_reread (Layer.of_reread hread).2 hv
  refine ⟨w, hw, ?_⟩
  rw [setting?, get?, hm]
  exact hget

/-- A chain that can be loaded is not refused for its ids or its counter. -/
lemma Loadable.ofRecord_reread {depth : Nat} (hl : chain.Loadable depth) :
    (chain.reread >>= fun read => (ofRecord read.record).mapError fun refusal =>
      Json.Fault.refused refusal.message) = chain.reread := by
  cases h : chain.reread with
  | error fault => rfl
  | ok read =>
    have hmax : read.nextId ≤ Layer.maxId := (layers_of_reread h).1 ▸ hl.nextId_le
    show (ofRecord read.record).mapError _ = _
    rw [record, ofRecord_of_numbered (hl.numbered.of_reread h) hmax]
    rfl

end Chain

/-! ## Files -/

/-- From where a chain was saved it is loaded with its settings read again. -/
lemma FileTree.load_of_save {tree after : FileTree} {path : String} {chain : Chain}
    (hl : chain.Loadable Project.placementDepth)
    (h : tree.perform (Project.save path (.ofChain chain)) = (.ok (), after)) :
    after.perform (Project.load path) =
      ((chain.reread.mapError .malformed).map .ofChain, after) := by
  rw [perform_load, read_of_save h, Project.ofAnswer, Project.ofContent_text_eq hl.readable,
    hl.ofRecord_reread]

/-- A project that was loaded is of the current version, and it can be loaded again. -/
lemma FileTree.loadable_of_load {tree : FileTree} {path : String} {project : Project}
    (h : (tree.perform (Project.load path)).1 = .ok project) :
    project = .ofChain project.chain ∧ project.chain.Loadable Project.placementDepth := by
  obtain ⟨content, -, haccept⟩ := exists_content h
  exact Project.loadable_of_ofContent haccept

/-! ## Literals -/

/-- A literal is rounded correctly. -/
lemma SettingValue.roundsTo_of_ofLiteral {literal : String} {x : Binary64} {r : Literal.Real}
    (h : ofLiteral literal = .ok (float x))
    (hr : Literal.real? (trimBlanks literal.toList) = some r) :
    x.RoundsTo (r.digits * 10 ^ r.exponent) := by
  rw [ofLiteral] at h
  generalize trimBlanks literal.toList = chars at h hr
  split_ifs at h
  · cases h
  · cases h
  · cases h
  · cases hint : Literal.int64? chars with
    | some n =>
      rw [hint] at h
      cases h
    | none =>
      rw [hint, Literal.readReal, hr] at h
      dsimp only at h
      cases hdecimal : Binary64.ofDecimal r.negative r.digits r.exponent with
      | none =>
        rw [hdecimal] at h
        cases h
      | some y =>
        rw [hdecimal] at h
        cases h
        exact (Binary64.ofDecimal_eq_some_iff.1 hdecimal).2

/-- A short literal is read again as itself. -/
lemma SettingValue.reread_of_short_literal {literal : String} {x : Binary64} {r : Literal.Real}
    (h : ofLiteral literal = .ok (float x))
    (hr : Literal.real? (trimBlanks literal.toList) = some r) (hplaces : -22 ≤ r.exponent)
    (hdigits : r.digits * 10 ^ r.exponent.toNat < 10 ^ 15) : x.reread = .ok x := by
  have hrounds := roundsTo_of_ofLiteral h hr
  have hform : (r.digits : ℚ) * 10 ^ r.exponent =
      (r.digits * 10 ^ r.exponent.toNat : Nat) / 10 ^ (-r.exponent).toNat := by
    have hsplit : r.exponent = r.exponent.toNat + -((-r.exponent).toNat : Int) := by omega
    conv_lhs => rw [hsplit, zpow_add₀ (by norm_num), zpow_neg, zpow_natCast, zpow_natCast]
    push_cast
    rw [div_eq_mul_inv, mul_assoc]
  rw [hform] at hrounds
  exact Binary64.reread_of_few_digits hdigits (by omega) hrounds

/-- What becomes of a setting that was read from a literal when its project is saved and loaded.
Every chain that is not refused for its ids, its counter or its placements is loaded, and can be
loaded again. The setting is loaded as the number that is composed of the digits of its text, with
the significand and the power of ten rounded first. So it is loaded as it was saved exactly if this
gives the number itself; and it does for every literal of at most fifteen digits, zeros before the
point counted, that has at most twenty-two places behind the point. All settings that are no
floating-point numbers are loaded as they were saved. -/
theorem saved_settings_reread {literal : String} {x : Binary64}
    (hx : SettingValue.ofLiteral literal = .ok (.float x)) {tree after : FileTree} {path : String}
    {chain : Chain} (hl : chain.Loadable Project.placementDepth)
    (hsave : tree.perform (Project.save path (.ofChain chain)) = (.ok (), after)) {id : Nat}
    {key : String} (hset : chain.setting? id key = some (.float x)) :
    ∃ (read : Chain) (y : Binary64),
      after.perform (Project.load path) = (.ok (.ofChain read), after) ∧
      read.Loadable Project.placementDepth ∧
      x.reread = .ok y ∧ read.setting? id key = some (.float y) ∧
      (read.setting? id key = some (.float x) ↔ x.reread = .ok x) ∧
      (∀ r, Literal.real? (trimBlanks literal.toList) = some r → -22 ≤ r.exponent →
        r.digits * 10 ^ r.exponent.toNat < 10 ^ 15 → read.setting? id key = some (.float x)) ∧
      ∀ id' key' v, chain.setting? id' key' = some v → (∀ z, v ≠ .float z) →
        read.setting? id' key' = some v := by
  obtain ⟨read, hread⟩ := chain.exists_reread
  have hload : after.perform (Project.load path) = (.ok (.ofChain read), after) := by
    rw [FileTree.load_of_save hl hsave, hread]
    rfl
  obtain ⟨-, hloadable⟩ := FileTree.loadable_of_load (congrArg Prod.fst hload)
  obtain ⟨w, hw, hloaded⟩ := Chain.setting?_of_reread hread hset
  obtain ⟨y, hy, rfl⟩ := map_eq_ok.1 hw
  have hkept : read.setting? id key = some (.float x) ↔ x.reread = .ok x := by
    rw [hloaded, hy, Option.some_inj, SettingValue.float.injEq, Except.ok.injEq]
  refine ⟨read, y, hload, hloadable, hy, hloaded, hkept, ?_, ?_⟩
  · intro r hr hplaces hdigits
    exact hkept.2 (SettingValue.reread_of_short_literal hx hr hplaces hdigits)
  · intro id' key' v hv hother
    obtain ⟨w, hw, hsame⟩ := Chain.setting?_of_reread hread hv
    rw [SettingValue.reread_of_ne_float hother] at hw
    rwa [← Except.ok.inj hw] at hsame

/-- One setting in a project that is saved over another one, and loaded. -/
theorem saved_settings_reread_on_quarter : ∃ (x : Binary64) (after : FileTree) (read : Chain),
    SettingValue.ofLiteral "0.25" = .ok (.float x) ∧
      (FileTree.empty.put ["net.json"] (.file (Content.ofString ""))).perform
        (Project.save "net.json" (.ofChain (.single .dropout "p" (.float x)))) = (.ok (), after) ∧
      after.perform (Project.load "net.json") = (.ok (.ofChain read), after) ∧
      read.setting? 1 "p" = some (.float x) := by
  obtain ⟨x, hx⟩ : ∃ x, SettingValue.ofLiteral "0.25" = .ok (.float x) :=
    ⟨⟨false, 4503599627370496, 1020, by decide, by decide, by decide⟩, by decide +kernel⟩
  generalize Content.ofString "" = content
  have hfile : (FileTree.empty.put ["net.json"] (.file content)).read "net.json" = .ok content :=
    rfl
  obtain ⟨after, hsave, -⟩ := FileTree.perform_save hfile
    (.ofChain (.single .dropout "p" (.float x)))
  have hset : (Chain.single .dropout "p" (.float x)).setting? 1 "p" = some (.float x) := rfl
  obtain ⟨read, y, hload, -, -, -, -, hshort, -⟩ :=
    saved_settings_reread hx (Chain.loadable_single _ _ _) hsave hset
  exact ⟨x, after, read, hx, hsave, hload,
    hshort ⟨false, 25, -2⟩ (by decide) (by decide) (by decide)⟩

/-- A setting that is `1e-23` is loaded as `1.0000000000000001e-23`. -/
theorem set_float_drifts : ∃ (x y : Binary64) (after : FileTree) (read : Chain),
    SettingValue.ofLiteral "1e-23" = .ok (.float x) ∧
      SettingValue.ofLiteral "1.0000000000000001e-23" = .ok (.float y) ∧ y ≠ x ∧
      (FileTree.empty.put ["net.json"] (.file (Content.ofString ""))).perform
        (Project.save "net.json" (.ofChain (.single .spatialBatchNorm "eps" (.float x)))) =
          (.ok (), after) ∧
      after.perform (Project.load "net.json") = (.ok (.ofChain read), after) ∧
      read.setting? 1 "eps" = some (.float y) := by
  obtain ⟨x, y, hx, hy, hne, hreread⟩ : ∃ x y, SettingValue.ofLiteral "1e-23" = .ok (.float x) ∧
      SettingValue.ofLiteral "1.0000000000000001e-23" = .ok (.float y) ∧ y ≠ x ∧
        x.reread = .ok y :=
    ⟨⟨false, 6805647338418769, 945, by decide, by decide, by decide⟩,
      ⟨false, 6805647338418770, 945, by decide, by decide, by decide⟩,
      by decide +kernel, by decide +kernel, by decide, by decide +kernel⟩
  generalize Content.ofString "" = content
  have hfile : (FileTree.empty.put ["net.json"] (.file content)).read "net.json" = .ok content :=
    rfl
  obtain ⟨after, hsave, -⟩ := FileTree.perform_save hfile
    (.ofChain (.single .spatialBatchNorm "eps" (.float x)))
  have hload := FileTree.load_of_save (Chain.loadable_single _ _ _) hsave
  obtain ⟨read, hchain⟩ := (Chain.single .spatialBatchNorm "eps" (.float x)).exists_reread
  rw [hchain] at hload
  have hset : (Chain.single .spatialBatchNorm "eps" (.float x)).setting? 1 "eps" =
      some (.float x) := rfl
  obtain ⟨w, hw, hsetting⟩ := Chain.setting?_of_reread hchain hset
  rw [SettingValue.reread, hreread] at hw
  cases hw
  exact ⟨x, y, after, read, hx, hy, hne, hsave, hload, hsetting⟩

end LayerChain
