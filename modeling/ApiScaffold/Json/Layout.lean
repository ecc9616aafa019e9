import ApiScaffold.Json.Printer

namespace ApiScaffold.Json

inductive Layout
  | object (members : List (String × Layout))
  | inline (d : Data)

namespace Layout

def strings (members : List (String × String)) : Layout :=
  object (members.map fun m => (m.1, inline (.str m.2)))

mutual

def data : Layout → Data
  | object ms => .mapping (entries ms)
  | inline d => d

def entries : List (String × Layout) → List (Data × Data)
  | [] => []
  | (k, l) :: ms => (.str k, data l) :: entries ms

end

mutual

def text (margin : String) : Layout → String
  | object ms => "\x7b\n" ++ memberTexts (margin ++ "  ") ms ++ margin ++ "\x7d"
  | inline d => d.json

def memberTexts (margin : String) : List (String × Layout) → String
  | [] => ""
  | [(k, l)] => margin ++ quote k ++ ": " ++ text margin l ++ "\n"
  | (k, l) :: m :: ms => margin ++ quote k ++ ": " ++ text margin l ++ ",\n" ++ memberTexts margin (m :: ms)

end

end Layout

end ApiScaffold.Json
