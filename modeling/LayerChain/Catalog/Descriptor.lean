import LayerChain.Catalog.Kind
import LayerChain.Catalog.Settings

/-!
# The catalog

What is known of each layer kind: the settings it declares, in canonical order and with their
defaults, the setting that receives the size of what enters the layer, and the rule for the shape
that leaves it.
-/

namespace LayerChain

/-- What a setting is for. -/
inductive Role where
  /-- Filled in from the shape that enters the layer. -/
  | auto
  /-- Chosen by the user. -/
  | user
  /-- Names an activation that is applied after the layer; no argument of its constructor. -/
  | activation
deriving DecidableEq, Repr

/-- A setting that a layer kind declares. -/
structure Field where
  /-- The key in settings. -/
  name : String
  /-- The keyword of the constructor's argument. -/
  argument : String
  role : Role
  default : SettingValue
deriving DecidableEq

/-- The rule for the shape that leaves a layer. -/
inductive Transfer where
  /-- A feature count, read from a setting. -/
  | scalar (key : String)
  /-- A channel count, read from a setting. -/
  | spatial (key : String)
  /-- The shape that enters. -/
  | identity
  /-- A fixed feature count that stands in for one that is not tracked. -/
  | placeholder (features : UInt64)
deriving DecidableEq

/-- The entry of a layer kind in the catalog. -/
structure Descriptor where
  kind : Kind
  /-- What the names of its components in generated source begin with. -/
  stem : String
  /-- The declared settings in canonical order. -/
  fields : List Field
  transfer : Transfer
deriving DecidableEq

namespace Descriptor

/-- Settings with every declared setting at its default. -/
def defaults (descriptor : Descriptor) : Settings :=
  Settings.ofList (descriptor.fields.map fun f => (f.name, f.default))

/-- The declared setting of a name. -/
def field? (descriptor : Descriptor) (name : String) : Option Field :=
  descriptor.fields.find? fun f => f.name == name

/-- Whether a setting is declared. -/
def declares (descriptor : Descriptor) (name : String) : Bool :=
  (descriptor.field? name).isSome

/-- The key of the setting that receives the size of what enters, if there is one. -/
def autoField? (descriptor : Descriptor) : Option String :=
  (descriptor.fields.find? fun f => f.role == .auto).map Field.name

/-- Whether the kind has a setting for an activation. -/
def hasActivation (descriptor : Descriptor) : Bool :=
  descriptor.fields.any fun f => f.role == .activation

/-- Whether the shape that leaves is not tracked. -/
def isUnmodeled (descriptor : Descriptor) : Bool :=
  match descriptor.transfer with
  | .placeholder _ => true
  | _ => false

end Descriptor

namespace Catalog

/-- The feature count that stands in for the one of a flattened tensor. -/
def flattenedFeatures : UInt64 := 128

/-- The activation that means none. -/
def noActivation : String := "None"

/-- The key of the activation setting. -/
def activationKey : String := "activation"

/-! ## Building fields -/

/-- A setting that is filled in by inference. -/
def autoField (name argument : String) : Field := ⟨name, argument, .auto, .auto⟩

/-- A setting that the user chooses. -/
def userField (name argument : String) (default : SettingValue) : Field :=
  ⟨name, argument, .user, default⟩

/-- The setting for an activation. -/
def activationField (default : String) : Field :=
  ⟨activationKey, activationKey, .activation, .choice default⟩

/-- The floating-point value nearest to `digits * 10 ^ exponent`. -/
def real (digits : Nat) (exponent : Int) : SettingValue :=
  .float ((Binary64.ofDecimal false digits exponent).getD default)

/-! ## The entries -/

/-- The entry of a kind. -/
def describe : Kind → Descriptor
  | .dense => {
      kind := .dense
      stem := "fc"
      fields := [
        autoField "inFeatures" "in_features",
        userField "outFeatures" "out_features" (.int 128),
        userField "bias" "bias" (.bool true),
        activationField noActivation]
      transfer := .scalar "outFeatures" }
  | .spatialConv => {
      kind := .spatialConv
      stem := "conv"
      fields := [
        autoField "inChannels" "in_channels",
        userField "outChannels" "out_channels" (.int 32),
        userField "kernelSize" "kernel_size" (.int 3),
        userField "stride" "stride" (.int 1),
        userField "padding" "padding" (.int 0),
        activationField "ReLU"]
      transfer := .spatial "outChannels" }
  | .spatialBatchNorm => {
      kind := .spatialBatchNorm
      stem := "bn"
      fields := [
        autoField "numFeatures" "num_features",
        userField "eps" "eps" (real 1 (-5)),
        userField "momentum" "momentum" (real 1 (-1)),
        userField "affine" "affine" (.bool true)]
      transfer := .identity }
  | .dropout => {
      kind := .dropout
      stem := "dropout"
      fields := [
        userField "p" "p" (real 5 (-1)),
        userField "inplace" "inplace" (.bool false)]
      transfer := .identity }
  | .multiHeadAttention => {
      kind := .multiHeadAttention
      stem := "attn"
      fields := [
        autoField "embedDim" "embed_dim",
        userField "numHeads" "num_heads" (.int 8),
        userField "dropout" "dropout" (real 0 0),
        userField "batchFirst" "batch_first" (.bool true)]
      transfer := .scalar "embedDim" }
  | .spatialMaxPool => {
      kind := .spatialMaxPool
      stem := "pool"
      fields := [
        userField "kernelSize" "kernel_size" (.int 2),
        userField "stride" "stride" .auto,
        userField "padding" "padding" (.int 0)]
      transfer := .identity }
  | .flatten => {
      kind := .flatten
      stem := "flatten"
      fields := [
        userField "startDim" "start_dim" (.int 1),
        userField "endDim" "end_dim" (.int (-1))]
      transfer := .placeholder flattenedFeatures }

/-- The entry of a kind's name. -/
def describeNamed (name : String) : Except Error Descriptor := (Kind.ofName name).map describe

/-- All entries in order. -/
def all : List Descriptor := Kind.all.map describe

/-- The entry of a kind is about that kind. -/
@[simp] theorem kind_describe (kind : Kind) : (describe kind).kind = kind := by
  cases kind <;> rfl

end Catalog

/-- Reads a layer kind from a document: its name, or an object with its name. -/
def Kind.decoder : Json.Decoder Kind := Json.Decoder.variant Kind.ofName? (Kind.all.map Kind.name)

end LayerChain
