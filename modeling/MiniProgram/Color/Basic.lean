/-
Colours. A colour is either one of the named ones, or a mixture: four channels, each held in 32
bits, and what they are channels of. Colours are told apart by how they are held, so a name is not
the same colour as the channels it stands for.
-/
import MiniProgram.Number.Signed

namespace MiniProgram

open Number

/-! ## Channels -/

/-- How much there is of one part of a colour. -/
inductive Channel where
  /-- Left open; counts as none. -/
  | missing
  | level (x : Signed)
deriving DecidableEq, Repr

namespace Channel

/-- A channel that is full. -/
def full : Channel := .level (single.quotient 1 1)

/-- The level, none where it is left open. -/
def amount : Channel → Signed
  | missing => .zero
  | level x => x

/-- Less than full. -/
def isPartial (c : Channel) : Bool := c.amount.lt (single.quotient 1 1)

/-- Equal levels; the sign of nothing does not count. -/
def agrees : Channel → Channel → Bool
  | missing, missing => true
  | level x, level y => x.agrees y
  | _, _ => false

/-- The level times a whole number. -/
def renderTimes (scale : Nat) : Channel → String
  | missing => "none"
  | level x => single.render (single.times x (single.quotient scale 1))

def render (c : Channel) : String := c.renderTimes 1

end Channel

/-! ## Hues -/

namespace Hue

local instance : Add Signed := ⟨single.add⟩

local instance : Sub Signed := ⟨single.sub⟩

local instance : Mul Signed := ⟨single.times⟩

local instance (n : Nat) : OfNat Signed n := ⟨single.quotient n 1⟩

/-- Red, green and blue of a hue in degrees, a saturation and a lightness in percent. -/
def ofLightness (hue saturation lightness : Signed) : List Signed :=
  let light := lightness * single.quotient 1 100
  let a := saturation * single.quotient 1 100 * light.min (1 - light)
  -- each colour is strongest at its own place among the twelve parts of the circle
  [0, 8, 4].map fun place =>
    let x := place + hue * single.quotient 1 30
    let k := x - 12 * single.floor (x * single.quotient 1 12)
    light - a * ((k - 3).min (9 - k)).clamp (Signed.negate 1) 1

/-- Red, green and blue of a hue with white and black in percent mixed in. White and black alone make
grey. -/
def ofWhiteness (hue whiteness blackness : Signed) : List Signed :=
  let white := whiteness * single.quotient 1 100
  let black := blackness * single.quotient 1 100
  if (white + black).lt 1 then
    (ofLightness hue 100 50).map fun x => white + x * (1 - white - black)
  else List.replicate 3 (single.ratio white (white + black))

end Hue

/-! ## Colours -/

/-- The spaces that are named in a mixture. -/
inductive Space where
  | srgb | srgbLinear | displayP3 | a98Rgb | prophotoRgb | rec2020 | acesCg | aces2065
  | xyzD50 | xyzD65
deriving DecidableEq, Repr

def Space.name : Space → String
  | srgb => "srgb"
  | srgbLinear => "srgb-linear"
  | displayP3 => "display-p3"
  | a98Rgb => "a98-rgb"
  | prophotoRgb => "prophoto-rgb"
  | rec2020 => "rec2020"
  | acesCg => "--acescg"
  | aces2065 => "--aces2065-1"
  | xyzD50 => "xyz-d50"
  | xyzD65 => "xyz-d65"

/-- What the channels of a mixture are channels of. -/
inductive Form where
  /-- Red, green and blue. -/
  | rgb
  /-- Hue, saturation and lightness. -/
  | hsl
  /-- Hue, whiteness and blackness. -/
  | hwb
  /-- Lightness and two opponent colours. -/
  | lab | oklab
  /-- Lightness, chroma and hue. -/
  | lch | oklch
  /-- The axes of a named space. -/
  | axes (space : Space)
deriving DecidableEq, Repr

/-- A colour, by name or by its channels, the last of which says how opaque it is. -/
inductive Color where
  | named (name : String)
  | mixed (form : Form) (first second third alpha : Channel)
deriving DecidableEq, Repr

namespace Color

/-- Whether two colours are held alike. -/
def agrees : Color → Color → Bool
  | named a, named b => a == b
  | mixed f a b c alpha, mixed f' a' b' c' alpha' =>
    f == f' && a.agrees a' && b.agrees b' && c.agrees c' && alpha.agrees alpha'
  | _, _ => false

/-- Written `rgb(r, g, b)` out of 255, or `rgba(r, g, b, a)` where the colour is not opaque. -/
def renderMixture (channels : List Channel) (alpha : Channel) : String :=
  let mixture := ", ".intercalate ((channels.map (·.renderTimes 255)) ++
    if alpha.isPartial then [alpha.render] else [])
  (if alpha.isPartial then "rgba(" else "rgb(") ++ mixture ++ ")"

/-- Written `name(a b c)`, or `name(a b c / alpha)` where the colour is not opaque. -/
def renderSpaced (opening : String) (channels : List Channel) (alpha : Channel) : String :=
  opening ++ " ".intercalate (channels.map (·.render)) ++
    (if alpha.isPartial then " / " ++ alpha.render else "") ++ ")"

/-- A name is written as it is, and hues by the red, green and blue that they come to. -/
def render : Color → String
  | named name => name
  | mixed form a b c alpha =>
    match form with
    | .rgb => renderMixture [a, b, c] alpha
    | .hsl => renderMixture ((Hue.ofLightness a.amount b.amount c.amount).map .level) alpha
    | .hwb => renderMixture ((Hue.ofWhiteness a.amount b.amount c.amount).map .level) alpha
    | .lab => renderSpaced "lab(" [a, b, c] alpha
    | .oklab => renderSpaced "oklab(" [a, b, c] alpha
    | .lch => renderSpaced "lch(" [a, b, c] alpha
    | .oklch => renderSpaced "oklch(" [a, b, c] alpha
    | .axes space => renderSpaced ("color(" ++ space.name ++ " ") [a, b, c] alpha

end Color

end MiniProgram
