namespace Refit

inductive Entry where
  | file (content : List UInt8)
  | directory (entries : List (String × Entry))
  deriving Inhabited

namespace Entry

def isDirectory : Entry → Bool
  | directory _ => true
  | file _ => false

def findIn (name : String) : List (String × Entry) → Option Entry
  | [] => none
  | (other, entry) :: rest => if other = name then some entry else findIn name rest

def putIn (name : String) (entry : Entry) : List (String × Entry) → List (String × Entry)
  | [] => [(name, entry)]
  | (other, present) :: rest =>
    if other = name then (name, entry) :: rest
    else if name < other then (name, entry) :: (other, present) :: rest
    else (other, present) :: putIn name entry rest

def eraseIn (name : String) : List (String × Entry) → List (String × Entry)
  | [] => []
  | (other, present) :: rest =>
    if other = name then rest else (other, present) :: eraseIn name rest

def get? : Entry → List String → Option Entry
  | entry, [] => some entry
  | file _, _ :: _ => none
  | directory entries, name :: rest =>
    match findIn name entries with
    | some entry => entry.get? rest
    | none => none
termination_by structural _ names => names

/-- Puts an entry where names lead to. Nothing happens unless all names but the last lead through
    directories. -/
def put : Entry → List String → Entry → Entry
  | _, [], new => new
  | file content, _ :: _, _ => file content
  | directory entries, [name], new => directory (putIn name new entries)
  | directory entries, name :: next :: rest, new =>
    match findIn name entries with
    | some entry => directory (putIn name (entry.put (next :: rest) new) entries)
    | none => directory entries
termination_by structural _ names => names

def erase : Entry → List String → Entry
  | entry, [] => entry
  | file content, _ :: _ => file content
  | directory entries, [name] => directory (eraseIn name entries)
  | directory entries, name :: next :: rest =>
    match findIn name entries with
    | some entry => directory (putIn name (entry.erase (next :: rest)) entries)
    | none => directory entries
termination_by structural _ names => names

end Entry

/-- Changes between two trees come in an order in which they can be made: a directory is made before what is in it,
    and what is in the way of something new is removed first. -/
inductive Change where
  | makeDirectory (place : List String)
  | writeFile (place : List String) (content : List UInt8)
  | remove (place : List String)

def Change.removals (place : List String) (before after : List (String × Entry)) : List Change :=
  (before.filter (fun entry => (Entry.findIn entry.1 after).isNone)).map
    (fun entry => .remove (place ++ [entry.1]))

mutual

def Entry.changes (place : List String) (before : Option Entry) : Entry → List Change
  | .file content =>
    match before with
    | some (.file present) => if present = content then [] else [.writeFile place content]
    | some (.directory _) => [.remove place, .writeFile place content]
    | none => [.writeFile place content]
  | .directory entries =>
    match before with
    | some (.directory present) =>
      Change.removals place present entries ++ Entry.changesIn place present entries
    | some (.file _) => .remove place :: .makeDirectory place :: Entry.changesIn place [] entries
    | none => .makeDirectory place :: Entry.changesIn place [] entries

def Entry.changesIn (place : List String) (before : List (String × Entry)) :
    List (String × Entry) → List Change
  | [] => []
  | (name, entry) :: rest =>
    entry.changes (place ++ [name]) (Entry.findIn name before) ++ Entry.changesIn place before rest

end
end Refit
