import Ghostd.Lib.Bucket
import Ghostd.Lib.Netip
import Ghostd.Lib.Result
import Ghostd.Lib.Sha256
import Ghostd.Lib.Text
import Mathlib.Data.List.Dedup
import Mathlib.Data.List.Sort

/-!
# `Ghostd.Netconfig.DesiredState`: what a network target may ask for

The parts of `internal/netconfig/netconfig.go`, `routes.go` and `ifupdown.go` that look at a
target without touching the host: `Validate`, the preconditions on files, and the check of the
boot include tree.

An action arrives as a list of words. `readAction` is what `Validate` demands of one, and its
result is the action with its arguments, so that what runs later is one of the six kinds. Go maps
are buckets, whose order is that of `sortedKeys`; where the source walks a map in any order, only
the text of an error can depend on it.

`filepath.Match` is a parameter `glob`, with `none` for a malformed pattern.
-/

set_option autoImplicit false

namespace Ghostd.Netconfig

open Ghostd.Lib

/-! ### Paths -/

/-- The parts of a path that `filepath.Clean` keeps, the last one first. -/
def cleanParts (rooted : Bool) (kept : List String) : List String → List String
  | [] => kept
  | part :: rest =>
    if part = "" ∨ part = "." then cleanParts rooted kept rest
    else if part = ".." then
      match kept with
      | [] => if rooted then cleanParts rooted [] rest else cleanParts rooted [".."] rest
      | last :: kept' =>
        if last = ".." then cleanParts rooted (".." :: last :: kept') rest
        else cleanParts rooted kept' rest
    else cleanParts rooted (part :: kept) rest

/-- `filepath.IsAbs`. -/
def isAbs (path : String) : Bool := startsWith path "/"

/-- `filepath.Clean`. -/
def cleanPath (path : String) : String :=
  let text := joinText (cleanParts (isAbs path) [] (splitText path "/")).reverse "/"
  if isAbs path then "/" ++ text else if text = "" then "." else text

/-- `filepath.Base`, of a path that ends in a name. -/
def basePath (path : String) : String := (splitText path "/").getLastD ""

/-- `filepath.Dir`. -/
def dirPath (path : String) : String :=
  let parts := splitText path "/"
  if parts.length ≤ 1 then "." else cleanPath (joinText parts.dropLast "/" ++ "/")

/-- `InterfacesDir`. -/
def interfacesDir : String := "/etc/network/interfaces.d"

/-- `interfacesMain`. -/
def interfacesMain : String := "/etc/network/interfaces"

/-- `forwardingFiles`. -/
def forwardingFiles : List String :=
  ["/etc/sysctl.d/99-stack-forward.conf", "/etc/sysctl.d/99-stack-no-forward.conf"]

/-! ### Targets -/

/-- A default route: the arguments of its action. -/
structure DefaultRoute where
  dev : String
  gateway : String
  flag : String
  deriving DecidableEq, Repr

/-- The actions. -/
inductive Action where
  | defaultRoute (r : DefaultRoute)
  | vlan (base dev vlanID : String)
  | addr (dev ip : String)
  | sysctl (keyval : String)
  | forward (script : String)
  | up (dev : String)
  deriving DecidableEq, Repr

/-- `DesiredState`. -/
structure DesiredState where
  expectedFilesSHA256 : Bucket String String := .empty
  files : Bucket String String := .empty
  actions : List (List String) := []

/-- A character of `routeDevice`. -/
def deviceChar (c : Char) : Bool := asciiAlphanum c || c = '_' || c = '.' || c = ':' || c = '-'

/-- `validateDefaultRoute`. -/
def validateDefaultRoute (r : DefaultRoute) : Except String Unit := do
  refuseIf (!r.dev.toList.all deviceChar || r.dev.length < 1 || r.dev.length > 15 || r.dev = "." || r.dev = "..")
    "invalid default route device"
  refuseIf (!(parseAddr r.gateway).any fun ip => ip.is4 && !ip.isUnspecified && !ip.isMulticast)
    "default route requires an IPv4 unicast gateway"
  refuseIf (r.flag ≠ "onlink" && r.flag ≠ "offlink") "invalid default route onlink flag"

/-- The complaint about a wrong number of arguments. -/
def wrongArity (kind : String) (want got : Nat) : String :=
  "netconfig: action " ++ quoted kind ++ " wants " ++ toString want ++ " argument(s), got " ++ toString got

/-- What `Validate` demands of one action. -/
def readAction : List String → Except String Action
  | [] => throw "netconfig: empty action"
  | kind :: args =>
    if kind = "default-route" then
      match args with
      | [dev, gateway, flag] => do
        validateDefaultRoute ⟨dev, gateway, flag⟩
        pure (.defaultRoute ⟨dev, gateway, flag⟩)
      | _ => throw (wrongArity kind 3 args.length)
    else if kind = "vlan" then
      match args with
      | [base, dev, vlanID] => pure (.vlan base dev vlanID)
      | _ => throw (wrongArity kind 3 args.length)
    else if kind = "addr" then
      match args with
      | [dev, ip] => pure (.addr dev ip)
      | _ => throw (wrongArity kind 2 args.length)
    else if kind = "sysctl" then
      match args with
      | [keyval] => do
        refuseIf (keyval ≠ "net.ipv4.ip_forward=0" && keyval ≠ "net.ipv4.ip_forward=1")
          "netconfig: only IPv4 forwarding sysctl is supported"
        pure (.sysctl keyval)
      | _ => throw (wrongArity kind 1 args.length)
    else if kind = "forward" then
      match args with
      | [script] => do
        refuseIf (script ≠ "/etc/stack-forward.sh") "netconfig: unknown forwarding script"
        pure (.forward script)
      | _ => throw (wrongArity kind 1 args.length)
    else if kind = "up" then
      match args with
      | [dev] => pure (.up dev)
      | _ => throw (wrongArity kind 1 args.length)
    else
      throw ("netconfig: unrecognized action kind " ++ quoted kind ++
        " — only additive actions (vlan/addr/sysctl/forward/up) are accepted")

/-- The address claimed by an action, as text without its length, and who claims it. -/
def addressClaim : Action → Option (String × String)
  | .addr dev ip => some ((splitText ip "/").headD "", dev ++ " (" ++ ip ++ ")")
  | _ => none

/-- `validateNoConflictingAddresses`: an address text claimed by two different pairs. -/
def validateNoConflictingAddresses (actions : List Action) : Except String Unit :=
  let claims := actions.filterMap addressClaim
  (claims.map Prod.fst).dedup.insertionSort (· ≤ ·) |>.forM fun bare =>
    let pairs := ((claims.filter (·.1 = bare)).map Prod.snd).dedup.insertionSort (· ≤ ·)
    refuseIf (pairs.length > 1)
      ("netconfig: " ++ bare ++ " is declared more than once with conflicting assignments — " ++
        joinText pairs ", ")

/-- What `Validate` demands of a precondition. -/
def validatePrecondition (ds : DesiredState) (path digest : String) : Except String Unit := do
  refuseIf (path ≠ interfacesMain || byteLength digest ≠ 64) "invalid network file precondition"
  refuseIf (!digest.toList.all ("0123456789abcdef".toList.contains ·)) "invalid network file digest"
  refuseIf ((ds.files.get path).isNone) "precondition without desired file"

/-- What `Validate` demands of a file. -/
def validateFile (ds : DesiredState) (path content : String) : Except String Unit :=
  if path = interfacesMain then
    refuseIf ((ds.expectedFilesSHA256.get path).getD "" = "")
      "main ifupdown file requires explicit adoption precondition"
  else if path ∈ forwardingFiles then
    refuseIf (content ≠ "" && content ≠ "net.ipv4.ip_forward=0\n" && content ≠ "net.ipv4.ip_forward=1\n")
      ("netconfig: invalid forwarding file " ++ path)
  else
    refuseIf (cleanPath path ≠ path || !startsWith path (interfacesDir ++ "/"))
      ("netconfig: refusing to write " ++ quoted path ++ ": not inside " ++ interfacesDir)

/-- `Validate`, with the actions it has read. -/
def DesiredState.validate (ds : DesiredState) : Except String (List Action) := do
  ds.expectedFilesSHA256.entries.forM fun e => validatePrecondition ds e.1 e.2
  ds.files.entries.forM fun e => validateFile ds e.1 e.2
  let actions ← ds.actions.mapM readAction
  validateNoConflictingAddresses actions
  pure actions

/-! ### The host's files -/

/-- `checkFilePreconditions`. -/
def checkFilePreconditions (disk : Bucket String String) (ds : DesiredState) : Except String Unit :=
  ds.expectedFilesSHA256.entries.forM fun e =>
    match disk.get e.1 with
    | none => throw "cannot read adoption precondition"
    | some raw =>
      if raw = (ds.files.get e.1).getD "" then pure ()
      else
        refuseIf (encodeHex (sha256 (utf8Bytes raw)) ≠ e.2)
          (e.1 ++ " changed since observation; refusing adoption")

/-- `readInterfacesFiles`: the forwarding files and the files of the directory itself. -/
def readInterfacesFiles (disk : Bucket String String) : List (String × String) :=
  disk.entries.filter fun e => e.1 ∈ forwardingFiles || dirPath e.1 = interfacesDir

/-- The words of a line before its comment. -/
def lineWords (line : String) : List String := fields (String.ofList (line.toList.takeWhile (· ≠ '#')))

/-- A file name that `source-directory` reads. -/
def directoryName (name : String) : Bool :=
  name ≠ "" && name.toList.all fun c => asciiAlphanum c || c = '_' || c = '-'

/-- What the walk over the include tree has found: the files it reached, and which file defines
an interface for a family. -/
structure Tree where
  reached : List String := []
  claims : List (String × String) := []

section Ifupdown

variable (glob : String → String → Option Bool) (files : Bucket String String)

/-- A file that an include may name, given how a file is visited. The second component says that
one was found. -/
def visitMatch (visit : Tree → String → Except String Tree) (directory : Bool) (pattern : String)
    (walk : Tree × Bool) (p : String) : Except String (Tree × Bool) :=
  if directory && !directoryName (basePath p) then pure walk
  else
    match glob pattern (if directory then dirPath p else p) with
    | none => throw ("invalid ifupdown include " ++ pattern)
    | some false => pure walk
    | some true => do
      let tree ← visit walk.1 p
      pure (tree, true)

/-- One pattern of a `source` or `source-directory` line. -/
def visitPattern (visit : Tree → String → Except String Tree) (path : String) (directory : Bool)
    (tree : Tree) (word : String) : Except String Tree := do
  let pattern := if isAbs word then word else cleanPath (dirPath path ++ "/" ++ word)
  let includeDir := if directory then pattern else dirPath pattern
  refuseIf (includeDir ≠ interfacesDir) ("ifupdown include directory is not fully captured: " ++ includeDir)
  let (tree, found) ← (files.entries.map Prod.fst).foldlM (visitMatch glob visit directory pattern) (tree, false)
  refuseIf (!directory && !found && !containsAny pattern ['*', '?', '['])
    ("ifupdown include not captured: " ++ pattern)
  pure tree

/-- The interface and family that a line defines. -/
def ifaceKey : List String → Option String
  | "iface" :: name :: family :: _ :: _ => some (name ++ " " ++ family)
  | _ => none

/-- An interface is defined once. -/
def Tree.claim (tree : Tree) (path : String) (words : List String) : Except String Tree :=
  match ifaceKey words with
  | none => pure tree
  | some key =>
    match tree.claims.lookup key with
    | some prior => throw ("duplicate ifupdown definition " ++ key ++ ": " ++ prior ++ " and " ++ path)
    | none => pure { tree with claims := (key, path) :: tree.claims }

/-- One line of a file of the include tree. -/
def visitLine (visit : Tree → String → Except String Tree) (path : String) (tree : Tree)
    (line : String) : Except String Tree :=
  match lineWords line with
  | [] => pure tree
  | keyword :: args => do
    let tree ← tree.claim path (keyword :: args)
    if keyword = "source" ∨ keyword = "source-directory" then
      args.foldlM (visitPattern glob files visit path (keyword = "source-directory")) tree
    else pure tree

/-- `visit`. The files on the way to this one are `active`, each once, so a walk is never deeper
than there are files. -/
def visitFile : Nat → List String → Tree → String → Except String Tree
  | 0, _, _, path => throw ("ifupdown include cycle: " ++ path)
  | fuel + 1, active, tree, path =>
    if path ∈ active then throw ("ifupdown include cycle: " ++ path)
    else
      match files.get path with
      | none => throw ("ifupdown file was not captured: " ++ path)
      | some content =>
        (splitText content "\n").foldlM (visitLine glob files (visitFile fuel (path :: active)) path)
          { tree with reached := path :: tree.reached }

end Ifupdown

/-- The desired file lies in the directory of interface files. -/
def generated (path : String) : Bool := startsWith path (interfacesDir ++ "/")

/-- `checkIfupdownFiles`. -/
def checkIfupdownFiles (glob : String → String → Option Bool) (current desired : Bucket String String) :
    Except String Unit :=
  if desired.entries.any (generated ·.1) then do
    let files := desired.entries.foldl (fun files e => files.put e.1 e.2) current
    let tree ← visitFile glob files (files.entries.length + 1) [] {} interfacesMain
    desired.entries.forM fun e => do
      refuseIf (generated e.1 && e.1 ∉ tree.reached)
        ("generated interface file is not loaded at boot: " ++ e.1)
      (splitText ((current.get e.1).getD "") "\n").forM fun line =>
        match ifaceKey (lineWords line) with
        | none => pure ()
        | some key => refuseIf ((tree.claims.lookup key).isNone)
            ("write would remove boot configuration for " ++ key ++ " from " ++ e.1)
  else pure ()

/-- `checkIfupdown`. -/
def checkIfupdown (glob : String → String → Option Bool) (disk : Bucket String String) (ds : DesiredState) :
    Except String Unit :=
  if ds.files.entries.any (generated ·.1) then
    match disk.get interfacesMain with
    | none => throw "read boot network configuration"
    | some main =>
      let current : Bucket String String := (readInterfacesFiles disk).foldl (fun files e => files.put e.1 e.2) .empty
      checkIfupdownFiles glob (current.put interfacesMain main) ds.files
  else pure ()

end Ghostd.Netconfig
