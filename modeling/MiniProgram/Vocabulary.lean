/-
The built-in vocabulary: the elements that the host runtime provides and that need no declaration.
-/

namespace MiniProgram

/-- The elements that every project may use: components of the host runtime and the tags that
structure a template. -/
def builtinElements : List String :=
  [ -- containers
    "view", "swiper", "swiper-item", "scroll-view", "cover-view", "cover-image", "movable-view",
    "movable-area", "page-container",
    -- content
    "text", "icon", "progress", "rich-text",
    -- forms
    "button", "form", "label", "input", "textarea", "radio", "radio-group", "checkbox",
    "checkbox-group", "switch", "slider", "picker", "picker-view", "picker-view-column",
    -- navigation
    "navigator",
    -- media
    "image", "video", "camera", "live-player", "audio", "lottie",
    -- drawing
    "canvas", "map",
    -- open capabilities
    "web-view", "ad", "contact-button", "lifestyle",
    -- template structure
    "block", "slot", "template", "import", "include", "import-sjs"]

/-- The element names that count as built in. Names are compared exactly. -/
structure Vocabulary where
  /-- Names added to the built-in ones. -/
  extra : List String

namespace Vocabulary

def contains (v : Vocabulary) (name : String) : Bool :=
  name ∈ builtinElements || name ∈ v.extra

end Vocabulary

end MiniProgram
