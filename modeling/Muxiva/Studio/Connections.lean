import Muxiva.Build.Document
import Muxiva.Lib.System
import Muxiva.Studio.Dotenv

/-! `ConnectionStore`: the provider credentials of a project, kept in memory, in the process
environment and in the `.env` file, which Studio updates and loads again. -/
set_option linter.all false
namespace Muxiva.Studio

open JsonString (Codec)
open Muxiva.Build (Json)

structure ConnectionField where
  name : Text
  label : Text
  environment : Text
  secret : Bool
  required : Bool
  clientExposed : Bool
  default : Text
  deriving DecidableEq

structure Connection where
  id : Text
  displayName : Text
  description : Text
  fields : List ConnectionField
  deriving DecidableEq

def utf8Length (t : Text) : ℕ := (String.ofList t).utf8ByteSize

def validPackageId (value : Text) : Bool :=
  !value.isEmpty && decide (utf8Length value ≤ 64) &&
    value.all fun c => c.isLower || c.isDigit || c = '-' || c = '_'

/-- The loop of `validate_connection`. -/
def validateFields : List Text → List ConnectionField → Except String Unit
  | _, [] => .ok ()
  | names, field :: rest =>
    if !validPackageId field.name || names.contains field.name then
      .error "connection field names must be unique stable identifiers"
    else if (trim field.label).isEmpty || !validKey field.environment then
      .error "connection fields require labels and uppercase environment names"
    else validateFields (field.name :: names) rest

def validateConnection (connection : Connection) : Except String Unit :=
  if !validPackageId connection.id then
    .error "connection id must use 1-64 lowercase letters, digits, '-' or '_'"
  else if (trim connection.displayName).isEmpty || connection.fields.isEmpty then
    .error "connection requires a display name and at least one field"
  else validateFields [] connection.fields

def insertConnection (manifests : SortedMap Text Connection) (connection : Connection) :
    Except Text (SortedMap Text Connection) :=
  match manifests.get? connection.id with
  | some existing =>
    if existing ≠ connection then
      .error ("Provider packages declare conflicting connection `".toList ++ connection.id ++ ['`'])
    else .ok manifests
  | none => .ok (manifests.insert connection.id connection)

/-- The manifests of the connections the packages declare. -/
def collectConnections (declared : List Connection) : Except Text (List Connection) :=
  (declared.foldlM insertConnection .empty).map fun manifests => manifests.entries.map Prod.snd

/-- The value of a field, of the connection's and the field's name. -/
abbrev Values := Text × Text → Option Text

/-- The environment variables of the process. -/
abbrev Process := Text → Option Text

structure ConnectionStore where
  manifests : List Connection
  values : Values

/-- What is outside the store, and the place of the file. -/
structure World where
  path : Text
  file : Option Text
  process : Process

/-- `read_to_string`, which may fail. -/
def World.read (w : World) (failed : Option Text) : FileRead :=
  match failed, w.file with
  | some error, _ => .failed error
  | none, some text => .content text
  | none, none => .notFound

/-- All fields with their keys, in the order of the manifests. -/
def keyedFields (manifests : List Connection) : List ((Text × Text) × ConnectionField) :=
  manifests.flatMap fun connection =>
    connection.fields.map fun field => ((connection.id, field.name), field)

/-- What `load` takes for a field. -/
def resolve (process : Process) (file : Environment) (field : ConnectionField) : Text :=
  ((process field.environment).or (file.get? field.environment)).getD field.default

/-- An empty value is left out. -/
def loadField (process : Process) (file : Environment) (values : Values)
    (entry : (Text × Text) × ConnectionField) : Values :=
  let value := resolve process file entry.2
  if value = [] then values else Function.update values entry.1 (some value)

/-- The loop of `load`. -/
def loadValues (manifests : List Connection) (process : Process) (file : Environment) : Values :=
  (keyedFields manifests).foldl (loadField process file) fun _ => none

/-- `apply_to_process_environment`. -/
def ConnectionStore.setProcess (s : ConnectionStore) (process : Process) : Process :=
  (keyedFields s.manifests).foldl (fun process entry =>
    match s.values entry.1 with
    | some value => Function.update process entry.2.environment (some value)
    | none => process) process

/-- A variable cannot be set to a value with a NUL. -/
def hasNul (value : Text) : Bool := value.any fun c => c.toNat = 0

/-- `set_var` panics. -/
def ConnectionStore.panics (s : ConnectionStore) : Bool :=
  (keyedFields s.manifests).any fun entry => (s.values entry.1).any hasNul

/-- A store with what is outside of it. -/
structure Session where
  store : ConnectionStore
  world : World

/-- `ConnectionStore::load` of the connections the packages declare; `none` is a panic. -/
def load (J : Codec) (declared : List Connection) (w : World) (failed : Option Text) :
    Option (Except Text Session) :=
  match collectConnections declared with
  | .error e => some (.error e)
  | .ok manifests =>
    match readDotenv J w.path (w.read failed) with
    | .error e => some (.error e)
    | .ok file =>
      let s : ConnectionStore := ⟨manifests, loadValues manifests w.process file⟩
      if s.panics then none else some (.ok ⟨s, { w with process := s.setProcess w.process }⟩)

/-- The refusals of a new value, and whether it is left alone. -/
def checkedValue (connection : Text) (field : ConnectionField) (value : Json) :
    Except Text (Option Text) :=
  let place := "field `".toList ++ connection ++ ['.'] ++ field.name ++ ['`']
  match value with
  | .string value =>
    let value := value.toList
    if 16 * 1024 < utf8Length value then .error (place ++ " exceeds 16 KiB".toList)
    else if hasNul value || value.any fun c => c = '\n' || c = '\r' then
      .error (place ++ " cannot contain NUL or a line break".toList)
    else if field.secret && value.isEmpty then .ok none
    else .ok (some (trim value))
  | _ => .error (place ++ " must be a string".toList)

/-- The fields of one connection; those before a refused one are changed. -/
def updateFields (connection : Connection) : List (String × Json) → Values →
    Except Text Unit × Values
  | [], values => (.ok (), values)
  | (name, value) :: rest, values =>
    match connection.fields.find? (·.name = name.toList) with
    | none =>
      (.error ("unknown field `".toList ++ connection.id ++ ['.'] ++ name.toList ++ ['`']), values)
    | some field =>
      match checkedValue connection.id field value with
      | .error e => (.error e, values)
      | .ok none => updateFields connection rest values
      | .ok (some value) =>
        updateFields connection rest
          (Function.update values (connection.id, field.name) (some value))

def updateConnections (manifests : List Connection) : List (String × Json) → Values →
    Except Text Unit × Values
  | [], values => (.ok (), values)
  | (id, update) :: rest, values =>
    match manifests.find? (·.id = id.toList) with
    | none => (.error ("unknown connection `".toList ++ id.toList ++ ['`']), values)
    | some connection =>
      match update with
      | .object fields =>
        match updateFields connection fields values with
        | (.ok (), values) => updateConnections manifests rest values
        | (.error e, values) => (.error e, values)
      | _ =>
        (.error ("connection `".toList ++ id.toList ++ "` must be an object".toList), values)

/-- The entries of `connections` in the request, where it is one. -/
def requestedUpdates (input : Option Json) : Except Text (List (String × Json)) :=
  match input with
  | none => .error "connection configuration must be valid JSON".toList
  | some (.object root) =>
    match (root.find? (·.1 = "connections")).map Prod.snd with
    | some (.object updates) => .ok updates
    | _ => .error "connections must be an object".toList
  | some _ => .error "connections must be an object".toList

namespace ConnectionStore

/-- The values of the store put over those of the file. -/
def overFile (s : ConnectionStore) (file : Environment) : Environment :=
  (keyedFields s.manifests).foldl (fun output entry =>
    match s.values entry.1 with
    | some value => output.insert entry.2.environment value
    | none => output) file

/-- The errors of the file system, where it has one. -/
structure Io where
  readError : Option Text
  writeError : Option Text

/-- `persist_dotenv`. The file is replaced whole. -/
def persistDotenv (J : Codec) (s : ConnectionStore) (w : World) (io : Io) :
    Except Text Unit × World :=
  match readDotenv J w.path (w.read io.readError) with
  | .error e => (.error e, w)
  | .ok file =>
    match io.writeError with
    | some e => (.error e, w)
    | none => (.ok (), { w with file := some (renderDotenv J (s.overFile file)) })

end ConnectionStore

/-- `update_json` of a text that parses to `input`. -/
def Session.updateJson (J : Codec) (x : Session) (input : Option Json) (io : ConnectionStore.Io) :
    Except Text Unit × Session :=
  match requestedUpdates input with
  | .error e => (.error e, x)
  | .ok updates =>
    match updateConnections x.store.manifests updates x.store.values with
    | (.error e, values) => (.error e, { x with store := { x.store with values } })
    | (.ok (), values) =>
      let s := { x.store with values }
      match s.persistDotenv J x.world io with
      | (.error e, w) => (.error e, ⟨s, w⟩)
      | (.ok (), w) => (.ok (), ⟨s, { w with process := s.setProcess w.process }⟩)

/-- Studio's requests, and a new process in the environment it is given. -/
inductive ConnectionAction where
  | update (input : Option Json) (io : ConnectionStore.Io)
  | restart (process : Process) (failed : Option Text)

/-- The store of the project `w`, of which a first load has succeeded. -/
def connectionSystem (J : Codec) (declared : List Connection) (w : World) :
    Transition.System Session ConnectionAction where
  init x := load J declared w none = some (.ok x)
  step x
    | .update input io => some (x.updateJson J input io).2
    | .restart process failed =>
      match load J declared { x.world with process } failed with
      | some (.ok x) => some x
      | _ => none

namespace ConnectionStore

/-- What `status_json` tells of a field. -/
structure FieldStatus where
  name : Text
  label : Text
  secret : Bool
  required : Bool
  environment : Text
  set : Bool
  value : Text
  deriving DecidableEq

structure ConnectionStatus where
  id : Text
  displayName : Text
  description : Text
  configured : Bool
  fields : List FieldStatus
  deriving DecidableEq

def isSet (s : ConnectionStore) (connection : Connection) (field : ConnectionField) : Bool :=
  (s.values (connection.id, field.name)).any fun value => !value.isEmpty

def statusJson (s : ConnectionStore) : List ConnectionStatus :=
  s.manifests.map fun connection =>
    { id := connection.id
      displayName := connection.displayName
      description := connection.description
      configured := connection.fields.all fun field => !field.required || s.isSet connection field
      fields := connection.fields.map fun field =>
        { name := field.name
          label := field.label
          secret := field.secret
          required := field.required
          environment := field.environment
          set := s.isSet connection field
          value := if field.secret then []
            else (s.values (connection.id, field.name)).getD [] } }

def missingRequiredFor (s : ConnectionStore) (ids : List Text) : List Text :=
  (s.manifests.filter fun connection => ids.contains connection.id).flatMap fun connection =>
    connection.fields.filterMap fun field =>
      if field.required && !s.isSet connection field then
        some (connection.displayName ++ " / ".toList ++ field.label ++ " (".toList ++
          field.environment ++ [')'])
      else none

/-- The exposed values, without connections that have none. -/
def clientJson (s : ConnectionStore) : List (Text × List (Text × Text)) :=
  (s.manifests.map fun connection =>
    (connection.id, (connection.fields.filter (·.clientExposed)).filterMap fun field =>
      (s.values (connection.id, field.name)).map fun value => (field.name, value))).filter
    fun entry => !entry.2.isEmpty

end ConnectionStore

end Muxiva.Studio
