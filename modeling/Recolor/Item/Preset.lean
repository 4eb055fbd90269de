import Recolor.Json.Record

namespace Recolor

inductive Preset where
  | pistol
  | shortsword
  | teslaStaff
deriving DecidableEq, Repr

namespace Preset

def all : List Preset := [.pistol, .shortsword, .teslaStaff]

def name : Preset → String
  | .pistol => "pistol"
  | .shortsword => "shortsword"
  | .teslaStaff => "tesla-staff"

def itemName : Preset → String
  | .pistol => "commonpistol"
  | .shortsword => "commonshortsword"
  | .teslaStaff => "teslastaff"

def shortDescription : Preset → String
  | .pistol => "Drawable Pistol"
  | .shortsword => "Drawable Shortsword"
  | .teslaStaff => "Drawable Staff"

def ofName? (s : String) : Option Preset :=
  let lower := s.map Char.toLower
  if lower = "pistol" ∨ lower = "commonpistol" then some .pistol
  else if lower = "shortsword" ∨ lower = "commonshortsword" then some .shortsword
  else if lower = "tesla-staff" ∨ lower = "teslastaff" ∨ lower = "staff" then some .teslaStaff
  else none

def ofExactName? (s : String) : Option Preset := all.find? fun p => p.name == s

def ofDocument? : Json.Document → Option Preset
  | .string (some s) => ofExactName? s
  | .object [(some s, .null)] => ofExactName? s
  | _ => none

def read (s : String) : Option Preset := (Json.Document.read s).bind ofDocument?

def partNames : Preset → List String
  | .pistol => ["middle", "butt", "barrel"]
  | .shortsword => ["blade", "handle"]
  | .teslaStaff => ["staff", "stone", "chargeEffect"]

def partLine (name : String) : String :=
  "          \"" ++ name ++ "\": \x7b \"properties\": \x7b \"image\": \"/assetmissing.png\" \x7d \x7d"

def template (p : Preset) : String :=
  "\x7b\n" ++
  "  \"name\": \"" ++ p.itemName ++ "\",\n" ++
  "  \"count\": 1,\n" ++
  "  \"parameters\": \x7b\n" ++
  "    \"shortdescription\": \"" ++ p.shortDescription ++ "\",\n" ++
  "    \"rarity\": \"Legendary\",\n" ++
  "    \"inventoryIcon\": \"/assetmissing.png\",\n" ++
  "    \"animationCustom\": \x7b\n" ++
  "      \"animatedParts\": \x7b\n" ++
  "        \"parts\": \x7b\n" ++
  ",\n".intercalate (p.partNames.map partLine) ++ "\n" ++
  "        \x7d\n" ++
  "      \x7d\n" ++
  "    \x7d\n" ++
  "  \x7d\n" ++
  "\x7d\n"

end Preset

end Recolor
