import NodeFlow.Json.Display
import NodeFlow.Fault
import NodeFlow.Text.Case
import NodeFlow.Text.Search
/-!
# Workflow categories

What a workflow makes out of what decides which fields its template has.
The category is guessed from the class types in use, most specific first:
video before image editing before inpainting before plain text to image.
-/

namespace NodeFlow

/-- What a workflow makes out of what. -/
inductive Category where
  | textToImage
  | imageInpainting
  | imageEditing
  | textToVideo
  | imageToVideo
  deriving DecidableEq

namespace Category

/-- All categories. -/
def all : List Category :=
  [.textToImage, .imageInpainting, .imageEditing, .textToVideo, .imageToVideo]

/-- The name of a category. -/
def name : Category → String
  | .textToImage => "tti"
  | .imageInpainting => "iti_inpainting"
  | .imageEditing => "iti_editing"
  | .textToVideo => "ttv"
  | .imageToVideo => "itv"

/-- The category with a given name. -/
def ofName? (s : String) : Option Category := all.find? fun c => c.name = s

/-- The category that a value names, or the failure. -/
def ofJson (v : Json) : Except Fault Category :=
  match v.str?.bind ofName? with
  | some c => .ok c
  | none => .error (.unknownChoice v "WorkflowCategory")

/-- Whether the result is a video. -/
def isVideo : Category → Bool
  | .textToVideo | .imageToVideo => true
  | _ => false

/-- Whether an image is put in. -/
def needsImage : Category → Bool
  | .imageInpainting | .imageEditing | .imageToVideo => true
  | _ => false

/-! ## Fields -/

/-- The fields that a template must have. -/
def requiredKeys (c : Category) : List String :=
  if c.needsImage then ["positive_text", "image"] else ["positive_text"]

/-- The fields that a template may have. -/
def possibleKeys (c : Category) : List String :=
  if c.isVideo then
    ["negative_text", "highnoise_unet_name", "lownoise_unet_name", "highnoise_lora_name",
      "lownoise_lora_name", "vae_name", "clip_name", "width", "height", "length", "fps"]
  else
    let size := if c.needsImage then ["megapixels"] else ["width", "height"]
    ["negative_text", "ckpt_name", "unet_name", "vae_name", "clip_name"] ++ size ++
      ["steps", "cfg", "sampler_name", "scheduler", "lora_name"]

/-- The fields that a template may have in a graph with the given class types. A guider with a
single conditioning leaves no place for a negative prompt and its scale; a loader of two text
encoders has two names. -/
def optionalKeys (c : Category) (classTypes : List String) : List String :=
  let keys := c.possibleKeys.filter fun k =>
    !(classTypes.contains "BasicGuider" && (k = "cfg" || k = "negative_text"))
  if classTypes.contains "DualCLIPLoader" && !c.isVideo then
    keys.flatMap fun k => if k = "clip_name" then ["clip_name1", "clip_name2"] else [k]
  else keys

/-! ## Guessing -/

/-- Parts of the class types that only video workflows use, in lower case. -/
def videoMarks : List String := ["createvideo", "vhs_videocombine", "videolinearcfgguidance"]

/-- Parts of the class types that only image editing uses, in lower case. -/
def editingMarks : List String := ["textencodeqwenimageeditplus", "qwenimageedit"]

/-- Parts of the class types that only inpainting uses, in lower case. -/
def inpaintingMarks : List String := ["setlatentnoisemask", "inpaintmodel", "inpaint"]

/-- The category that class types suggest, if they suggest one. -/
def guess? (classTypes : List String) : Option Category :=
  let types := classTypes.map Text.lower
  let marked (marks : List String) : Bool :=
    types.any fun t => marks.any fun m => Text.occursIn m t
  let video := marked videoMarks
  let loadsImage := types.contains "loadimage"
  if video && loadsImage then some .imageToVideo
  else if video then some .textToVideo
  else if marked editingMarks then some .imageEditing
  else if marked inpaintingMarks || loadsImage then some .imageInpainting
  else if types.contains "checkpointloadersimple" || types.contains "unetloader" then
    some .textToImage
  else none

end Category

end NodeFlow
