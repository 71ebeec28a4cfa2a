import ColonyCache.Text.WhiteSpace
/-! Settings files of `NAME=value` lines, which fill in what the environment leaves unset. -/
namespace ColonyCache.Settings

def trimmed (s : List Char) : List Char := Text.trimWhiteSpace s

/-- The characters of an unquoted value up to a comment: a `#` after white space. -/
def upToComment : List Char → List Char
  | [] => []
  | c :: rest =>
    match rest with
    | '#' :: _ => if Text.isWhiteSpace c then [] else c :: upToComment rest
    | _ => c :: upToComment rest

/-- The value part of a line: quoted text without its quotes, or unquoted text up to a comment. -/
def valueOf (v : List Char) : String :=
  match v with
  | '\'' :: rest => String.ofList (rest.takeWhile (· != '\''))
  | '"' :: rest => String.ofList (rest.takeWhile (· != '"'))
  | _ => String.ofList (trimmed (upToComment v))

/-- The variable a line sets, if it sets one. -/
def entryOf (line : String) : Option (String × String) :=
  let l := trimmed line.toList
  let l := if l.take 7 == "export ".toList then trimmed (l.drop 7) else l
  match l with
  | [] => none
  | '#' :: _ => none
  | _ =>
    let raw := l.takeWhile (· != '=')
    let key := trimmed raw
    if raw.length == l.length || key.isEmpty then none
    else some (String.ofList key, valueOf (trimmed (l.drop (raw.length + 1))))

/-- The variables a settings file sets, the first setting of a name winning. -/
def entries (text : String) : List (String × String) :=
  (text.splitOn "\n").foldl (fun acc line =>
    match entryOf line with
    | some (k, v) => if (acc.lookup k).isSome then acc else acc ++ [(k, v)]
    | none => acc) []

end ColonyCache.Settings
