/-! JSON values and their compact texts.  A number is the text of its literal. -/
namespace FastapiTurbo.Lib

inductive Json where
  | null
  | bool (value : Bool)
  | number (literal : String)
  | string (text : String)
  | array (items : List Json)
  | object (entries : List (String × Json))

namespace Json

def isScalar : Json → Bool
  | .array _ | .object _ => false
  | _ => true

theorem ne_of_mem_entries {entries : List (String × Json)} {key : String} {json : Json}
    (hmem : (key, json) ∈ entries) : Json.object entries ≠ json := by
  intro hs
  have hl := List.sizeOf_lt_of_mem hmem
  have hsize := congrArg sizeOf hs
  simp only [object.sizeOf_spec, Prod.mk.sizeOf_spec] at hl hsize
  omega

section Render

variable (quote : String → List Char)

def commas : List (List Char) → List Char
  | [] => []
  | [part] => part
  | part :: rest => part ++ ',' :: commas rest

mutual

def render : Json → List Char
  | .null => "null".toList
  | .bool value => if value then "true".toList else "false".toList
  | .number literal => literal.toList
  | .string text => quote text
  | .array items => '[' :: commas (renderItems items) ++ [']']
  | .object entries => '{' :: commas (renderEntries entries) ++ ['}']

def renderItems : List Json → List (List Char)
  | [] => []
  | item :: rest => render item :: renderItems rest

def renderEntries : List (String × Json) → List (List Char)
  | [] => []
  | (key, value) :: rest => (quote key ++ ':' :: render value) :: renderEntries rest

end

end Render

end Json

end FastapiTurbo.Lib
