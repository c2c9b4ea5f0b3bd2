import LayerChain.Catalog.Descriptor
import LayerChain.Proofs.Catalog.Settings
import LayerChain.Proofs.Json.Records

/-!
# Settings that come back from documents

From where settings were written the same settings are read, in their order, with every
floating-point number read again (`Settings.decoder_document_eq`); so settings whose floating-point
numbers come back from their texts come back from documents. The defaults of every kind are such
settings (`Catalog.floatsReadBack_defaults`).
-/

namespace LayerChain

open Json (Normal document)
open Json.Decoder

namespace SettingValue

/-- A value comes back from its text, if it is a floating-point number. -/
def FloatsReadBack (v : SettingValue) : Prop := ∀ x, v = .float x → x.ReadsBack

lemma floatsReadBack_bool (b : Bool) : (bool b).FloatsReadBack := by
  intro x h
  cases h

lemma floatsReadBack_int (n : Int64) : (int n).FloatsReadBack := by
  intro x h
  cases h

lemma floatsReadBack_choice (s : String) : (choice s).FloatsReadBack := by
  intro x h
  cases h

lemma floatsReadBack_auto : auto.FloatsReadBack := by
  intro x h
  cases h

lemma ofJson?_toJson (v : SettingValue) : ofJson? v.toJson = some v := by
  cases v with
  | int n =>
    have hrange : Int64.minValue.toInt ≤ n.toInt ∧ n.toInt ≤ Int64.maxValue.toInt :=
      ⟨Int64.minValue_le_toInt n, Int64.toInt_le n⟩
    rw [toJson, ofJson?, if_pos hrange, Int64.ofInt_toInt]
  | bool b => rfl
  | float x => rfl
  | choice s => rfl
  | auto => rfl

lemma readable_toJson (depth : Nat) (v : SettingValue) : Json.Readable depth v.toJson := by
  cases v with
  | bool b => exact .bool depth b
  | int n =>
    have hlow := Int64.minValue_le_toInt n
    have hhigh := Int64.toInt_le n
    exact .whole depth ⟨hlow, Int.le_trans hhigh (by decide)⟩
  | float x => exact .float depth x
  | choice s => exact .text depth s
  | auto => exact .null depth

/-- The value that is read where a value was written. -/
def reread : SettingValue → Except Json.Fault SettingValue
  | float x => x.reread.map .float
  | v => .ok v

lemma FloatsReadBack.reread_eq {v : SettingValue} (h : v.FloatsReadBack) : v.reread = .ok v := by
  cases v with
  | float x => rw [reread, Json.readsBack_iff.1 (h x rfl), Except.map]
  | _ => rfl

lemma reread_toJson (v : SettingValue) : v.toJson.reread = v.reread.map toJson := by
  cases v with
  | float x =>
    rw [toJson, Json.reread, reread]
    cases x.reread <;> rfl
  | _ => rfl

lemma decoder_document_eq (depth : Nat) (v : SettingValue) :
    decoder depth (document v.toJson) = v.reread := by
  rw [decoder, Json.any_document_eq_reread (v.readable_toJson depth), reread_toJson]
  cases v.reread with
  | error fault => rfl
  | ok w =>
    simp only [Except.map, bind, Except.bind, ofJson?_toJson]
    rfl

end SettingValue

namespace Settings

/-- Every floating-point number in some settings comes back from its text. -/
def FloatsReadBack (settings : Settings) : Prop := ∀ e ∈ settings.entries, e.2.FloatsReadBack

variable {s patch : Settings}

/-- The settings that are read where settings were written. -/
def reread (s : Settings) : Except Json.Fault Settings :=
  (s.entries.mapM fun e : String × SettingValue => e.2.reread.map fun v => (e.1, v)).map ofList

/-- From where settings were written they are read with every value read again. -/
theorem decoder_document_eq (depth : Nat) (s : Settings) :
    decoder (depth + 1) (document s.toJson) = s.reread := by
  rw [decoder, Settings.toJson, reread]
  exact congrArg (Except.map ofList)
    (entries_document_eq _ fun e _ => SettingValue.decoder_document_eq depth e.2)

lemma FloatsReadBack.reread_eq (h : s.FloatsReadBack) : s.reread = .ok s := by
  have hentries : (s.entries.mapM fun e => e.2.reread.map fun v => (e.1, v)) = .ok s.entries := by
    refine mapM_eq_ok_iff.2 (List.forall₂_same.2 fun e he => ?_)
    rw [(h e he).reread_eq]
    rfl
  rw [reread, hentries, Except.map, ofList_entries]

/-- Settings come back from their form in documents. -/
theorem decoder_document (h : s.FloatsReadBack) (depth : Nat) :
    decoder (depth + 1) (document s.toJson) = .ok s :=
  (s.decoder_document_eq depth).trans h.reread_eq

/-! ## Setting keys -/

lemma FloatsReadBack.insert (h : s.FloatsReadBack) {key : String} {v : SettingValue}
    (hv : v.FloatsReadBack) : (s.insert key v).FloatsReadBack := by
  intro e he
  rcases mem_setEntry he with rfl | he
  · exact hv
  · exact h e he

lemma FloatsReadBack.insertMany (h : s.FloatsReadBack) {es : List (String × SettingValue)}
    (hes : ∀ e ∈ es, e.2.FloatsReadBack) : (s.insertMany es).FloatsReadBack := by
  induction es generalizing s with
  | nil => exact h
  | cons e es ih =>
    obtain ⟨he, hrest⟩ := List.forall_mem_cons.1 hes
    exact ih (h.insert he) hrest

lemma FloatsReadBack.merge (h : s.FloatsReadBack) (hp : patch.FloatsReadBack) :
    (s.merge patch).FloatsReadBack := h.insertMany hp

lemma floatsReadBack_empty : empty.FloatsReadBack := by
  intro e he
  cases he

end Settings

/-! ## Defaults -/

/-- A number comes back if its text is scanned as a numeral that stands for it. -/
lemma Binary64.readsBack_of_scan {x : Binary64} (numeral : Json.Numeral)
    (hscan : Json.Token.scan (Json.chars (Layout.document.chars x)) = [.number numeral])
    (hvalue : numeral.value = .ok (.float x)) : x.ReadsBack := by
  have htext : Content.ofString (Layout.document.text x) =
      Json.chars (Layout.document.chars x) := by
    simp [Content.ofString, Layout.text]
  have hbuilt : Json.Document.ofTokens [.number numeral] = (.leaf (some (.number numeral)), []) := by
    rw [Json.Document.ofTokens, Json.Document.value]
  rw [ReadsBack, Json.decodeString, htext, Json.decode_eq_ok, hscan, hbuilt]
  refine ⟨?_, rfl⟩
  show (Json.Token.number numeral).found.map scalar = _
  rw [Json.Token.found, hvalue]
  rfl

namespace Catalog

lemma floatsReadBack_real {digits : Nat} {exponent : Int}
    (h : ((Binary64.ofDecimal false digits exponent).getD default).ReadsBack) :
    (real digits exponent).FloatsReadBack := by
  intro x hx
  cases hx
  exact h

/-- The floating-point defaults of all kinds come back from their texts. -/
theorem floatsReadBack_defaults (kind : Kind) : (describe kind).defaults.FloatsReadBack := by
  have hsmall : (real 1 (-5)).FloatsReadBack :=
    floatsReadBack_real (Binary64.readsBack_of_scan ⟨false, [0], [0, 0, 0, 0, 1], none⟩
      (by decide +kernel) (by decide +kernel))
  have htenth : (real 1 (-1)).FloatsReadBack :=
    floatsReadBack_real (Binary64.readsBack_of_scan ⟨false, [0], [1], none⟩
      (by decide +kernel) (by decide +kernel))
  have hhalf : (real 5 (-1)).FloatsReadBack :=
    floatsReadBack_real (Binary64.readsBack_of_scan ⟨false, [0], [5], none⟩
      (by decide +kernel) (by decide +kernel))
  have hzero : (real 0 0).FloatsReadBack :=
    floatsReadBack_real (Binary64.readsBack_of_scan ⟨false, [0], [0], none⟩
      (by decide +kernel) (by decide +kernel))
  have hfields : ∀ f ∈ (describe kind).fields, f.default.FloatsReadBack := by
    cases kind <;>
      simp [describe, autoField, userField, activationField, SettingValue.floatsReadBack_bool,
        SettingValue.floatsReadBack_int, SettingValue.floatsReadBack_choice,
        SettingValue.floatsReadBack_auto, hsmall, htenth, hhalf, hzero]
  refine Settings.floatsReadBack_empty.insertMany ?_
  intro e he
  obtain ⟨f, hf, rfl⟩ := List.mem_map.1 he
  exact hfields f hf

end Catalog

end LayerChain
