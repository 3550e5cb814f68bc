import QueryMapping.Database.Pool
import QueryMapping.Dsn.Resolve
import QueryMapping.Relational.Backend
import QueryMapping.Storage.Location
import QueryMapping.Storage.Tree

/-! Handles on databases: opening the one that a data source name names, and closing it again. What
a database in memory holds is gone with its handle, and a file keeps what it holds. -/

namespace QueryMapping

open Relational (Connection Store)

inductive Content where
  | text (s : String)
  | store (s : Store)

abbrev Files := FileTree Content

structure DatabaseHandle (σ : Type) where
  engine : Engine
  dsn : String
  place? : Option Place
  pool : Pool σ

abbrev Handle := DatabaseHandle Connection

namespace Handle

def refusal (reason : String) : DatabaseError := .backend ⟨reason⟩

def givesConnections (o : ConnectOptions) : Bool :=
  o.maxConnections != some 0 && o.acquireTimeout != some ⟨0, 0⟩

/-- Whether a connection is too old as soon as it is given back. Nothing is done with it within a
microsecond. -/
def isShortLived (o : ConnectOptions) : Bool :=
  o.maxLifetime.any fun d => d.seconds = 0 && d.nanos ≤ 1000

def poolOf (o : ConnectOptions) (c : Connection) : Pool Connection :=
  .ofState c (o.minConnections.getD 0) (o.maxConnections.getD 10) (isShortLived o)

/-- A connection to what a file holds. An empty text is an empty store. -/
def connection (c : Content) : Connection :=
  match c with
  | .store s => { Connection.ofStore s with isShared := true }
  | .text s => { Connection.ofStore .empty with isStore := s.isEmpty, isShared := true }

def openTransient (o : OpenOptions) (pool : ConnectOptions) (dsn : String) : Handle :=
  ⟨.sqlite, dsn, none, poolOf pool { Connection.ofStore .empty with isReadOnly := o.readOnly }⟩

def longestPath : Nat := 512

def isUsablePath (path : String) : Bool :=
  path.utf8ByteSize ≤ longestPath && (path.splitOn "/").all FileTree.isUsable

/-- The file that changes are noted in beside that of a place has a name that a file can have. -/
def hasJournal (place : Place) : Bool :=
  place.getLast?.any fun name => FileTree.isUsable (name ++ "-journal")

/-- Opens the database in a file. A new file is empty. -/
def openFile (o : OpenOptions) (pool : ConnectOptions) (dsn : String) (files : Files) :
    Except DatabaseError Handle × Files :=
  let place := FileTree.lexicalPlace o.file
  let opened (c : Content) : Handle :=
    ⟨.sqlite, dsn, some place, poolOf pool { connection c with
      isReadOnly := o.readOnly || o.immutable || !hasJournal place }⟩
  if !isUsablePath o.file || files.isDirectory place ||
      !files.isDirectory (FileTree.above place) then
    (.error (refusal "unable to open database file"), files)
  else
    match files.files.get? place with
    | some c => (.ok (opened c), files)
    | none =>
      if o.createFile && !o.readOnly then
        (.ok (opened (.text "")), files.write place (.text ""))
      else (.error (refusal "unable to open database file"), files)

def openWith (o : OpenOptions) (pool : ConnectOptions) (dsn : String) (files : Files) :
    Except DatabaseError Handle × Files :=
  match if o.inMemory then some o else o.located? with
  | none => (.error (refusal "unable to open database file"), files)
  | some o =>
    if o.isTransient then (.ok (openTransient o pool dsn), files) else openFile o pool dsn files

def makeDirectories (dsn : String) (files : Files) : Except DatabaseError Files :=
  if "sqlite:".toList.isPrefixOf (Text.trimStart dsn.toList) then
    match files.makeParents? (Dsn.sqlitePath dsn) with
    | some files => .ok files
    | none => .error (.file (Dsn.sqlitePath dsn))
  else .error (.dsn (.badSetting (.notSqlite dsn)))

/-- The options of a pool, which keeps to one connection for a database in memory. -/
def poolOptions (o : ConnectOptions) (dsn : String) : ConnectOptions :=
  if Dsn.isMemory dsn then o.pinned else o

def connectSqlite (o : ConnectOptions) (dsn : String) (files : Files) :
    Except DatabaseError Handle × Files :=
  let made :=
    if !Dsn.isMemory dsn && o.createDirectories then makeDirectories dsn files else .ok files
  match made with
  | .error e => (.error e, files)
  | .ok files =>
    match OpenOptions.ofDsn? dsn with
    | none => (.error (refusal "unknown parameter"), files)
    | some options =>
      let pool := poolOptions o dsn
      if givesConnections pool then openWith options pool dsn files
      else (.error (refusal "pool timed out"), files)

def connect (o : ConnectOptions) (dsn : String) (files : Files) :
    Except DatabaseError Handle × Files :=
  match Dsn.detect dsn with
  | .error e => (.error (.dsn e), files)
  | .ok .postgres => (.error (.unavailable "pg"), files)
  | .ok .mysql => (.error (.unavailable "mysql"), files)
  | .ok .sqlite => connectSqlite o dsn files

def connectSettings (env : Environment) (c : ConnectionSettings) (files : Files) :
    Except DatabaseError Handle × Files :=
  match Dsn.resolve env c with
  | .error e => (.error (.dsn e), files)
  | .ok dsn => connect c.options dsn files

/-- What a file holds after a connection to it is closed. A file that nothing was written to stays
as it is. -/
def closed (c : Connection) (content : Content) : Content :=
  match content with
  | .text s => if !c.isStore || c.store = .empty then .text s else .store c.store
  | .store _ => .store c.store

/-- Closes a handle; an open transaction is given up, and a file keeps the rest. -/
def close (h : Handle) (files : Files) : Files :=
  match h.place? with
  | none => files
  | some place =>
    files.write place (closed h.pool.session.base ((files.files.get? place).getD (.text "")))

end Handle

end QueryMapping
