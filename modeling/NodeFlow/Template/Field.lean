import NodeFlow.Json.Value
import NodeFlow.Text.Case
/-!
# Template fields

A template stands in for some inputs of a workflow by placeholders. A field
is what a user fills in; its key, the placeholder written for it and the
input it lands on are often one word, and the tables list where they differ.
-/

namespace NodeFlow

/-- Placeholders with the inputs they land on, where the two differ. -/
def placeholderInputs : List (String × String) := [
  ("positive_prompt", "positive_text"),
  ("negative_prompt", "negative_text"),
  ("highnoise_unet_name", "unet_name"),
  ("lownoise_unet_name", "unet_name"),
  ("highnoise_lora_name", "lora_name"),
  ("lownoise_lora_name", "lora_name"),
  ("frame_rate", "fps"),
  ("image_filename", "image")]

/-- Fields with the placeholders written for them, where the two differ. -/
def fieldPlaceholders : List (String × String) := [
  ("positive_text", "positive_prompt"),
  ("negative_text", "negative_prompt"),
  ("fps", "frame_rate"),
  ("image", "image_filename")]

/-- The second part of the first pair with a given first part. -/
def pairOf? {α : Type} (pairs : List (String × α)) (key : String) : Option α :=
  (pairs.find? fun p => p.1 = key).map Prod.snd

/-- The input that a placeholder lands on. -/
def inputOfPlaceholder (placeholder : String) : String :=
  (pairOf? placeholderInputs placeholder).getD placeholder

/-- The placeholder that is written for a field. -/
def placeholderOfField (key : String) : String := (pairOf? fieldPlaceholders key).getD key

/-- Fields under their keys with the names they are shown by and what they are. -/
def fieldInfo : List (String × String × String) := [
  ("positive_text", "Positive Prompt", "The text prompt for generation"),
  ("negative_text", "Negative Prompt", "Text describing what to avoid in generation"),
  ("ckpt_name", "Checkpoint", "The checkpoint model to use"),
  ("unet_name", "UNET Model", "The diffusion model to use"),
  ("highnoise_unet_name", "High Noise UNET", "Diffusion model for the high-noise pass"),
  ("lownoise_unet_name", "Low Noise UNET", "Diffusion model for the low-noise pass"),
  ("highnoise_lora_name", "High Noise LoRA", "LoRA applied on the high-noise pass"),
  ("lownoise_lora_name", "Low Noise LoRA", "LoRA applied on the low-noise pass"),
  ("vae_name", "VAE", "The VAE encoder/decoder"),
  ("clip_name", "CLIP", "The CLIP text encoder"),
  ("clip_name1", "CLIP 1 (T5)", "First CLIP text encoder (T5-XXL for Flux)"),
  ("clip_name2", "CLIP 2 (L)", "Second CLIP text encoder (L for Flux)"),
  ("width", "Width", "Output image width"),
  ("height", "Height", "Output image height"),
  ("steps", "Steps", "Number of sampling steps"),
  ("cfg", "CFG Scale", "Classifier-free guidance scale"),
  ("sampler_name", "Sampler", "Sampling algorithm"),
  ("scheduler", "Scheduler", "Noise scheduling method"),
  ("megapixels", "Megapixels", "Target size in megapixels"),
  ("lora_name", "LoRA", "LoRA adapter model"),
  ("length", "Length", "Video length in frames"),
  ("fps", "Frame Rate", "Video frames per second"),
  ("image", "Input Image", "Source image for generation")]

/-- The name that a field is shown by; one that is not known is shown by its key. -/
def displayName (key : String) : String :=
  match pairOf? fieldInfo key with
  | some info => info.1
  | none => Text.capitalize key

/-- What a field is. -/
def description (key : String) : String :=
  match pairOf? fieldInfo key with
  | some info => info.2
  | none => s!"Required field: {key}"

/-- A field of a template. Its parts are texts, except where a saved state was tampered with: such
a field still shows what was saved. -/
structure Field where
  key : Json
  displayName : Json
  description : Json
  deriving DecidableEq

/-- The field with a given key. -/
def Field.ofKey (key : String) : Field :=
  ⟨.str key, .str (NodeFlow.displayName key), .str (NodeFlow.description key)⟩

/-- The inputs under which a field can appear on a node. -/
def inputsOfField (key : String) : List String :=
  inputOfPlaceholder key :: (if key = "fps" then ["frame_rate"] else [])

end NodeFlow
