import Sealedge.Rotation
import Mathlib.Data.List.AList

namespace Sealedge

/-- A device's local chronicle head pointer. -/
structure ChronicleState where
  devicePub : String
  sequence : UInt64
  tip : String
  keyEpoch : UInt32
  updatedAt : String
  deriving DecidableEq

/-- `serde_json` on the documents that are kept in files, and `String::from_utf8_lossy`. -/
structure Storage where
  parseManifest : Bytes → Except String TrstManifest
  printManifest : TrstManifest → String
  parseRotation : Bytes → Except String RotationRecord
  printRotation : RotationRecord → String
  parseState : Bytes → Except String ChronicleState
  printState : ChronicleState → String
  utf8Lossy : Bytes → String

/-- Documents come back from their files as they were written. A manifest with a float that has
no JSON form does not come back at all. -/
structure Storage.Lossless (st : Storage) : Prop where
  manifest : ∀ m m', st.parseManifest (intoBytes (st.printManifest m)) = .ok m' → m' = m
  rotation : ∀ r, st.parseRotation (intoBytes (st.printRotation r ++ "\n")) = .ok r
  state : ∀ s, st.parseState (intoBytes (st.printState s)) = .ok s

/-- Documented behaviour of `from_utf8_lossy` on file names: the ending of a name is kept, and
bytes that are read without a replacement character are those of the text. -/
structure Storage.KeepsNames (st : Storage) : Prop where
  ending : ∀ name, intoBytes ".bin" <:+ name → Texts.endsWith (st.utf8Lossy name) ".bin" = true
  exact : ∀ name, '\uFFFD' ∉ (st.utf8Lossy name).toList → intoBytes (st.utf8Lossy name) = name

inductive IoError
  | notFound
  | other (reason : String)
  deriving DecidableEq

def IoError.display : IoError → String
  | notFound => "No such file or directory (os error 2)"
  | other reason => reason

/-- What stands at a path: nothing, a file, or something that cannot be read as one. -/
inductive Node
  | absent
  | file (bytes : Bytes)
  | unreadable (regular : Bool) (reason : String)
  deriving DecidableEq

namespace Node

def isFile : Node → Bool
  | absent => false
  | file _ => true
  | unreadable regular _ => regular

def read : Node → Except IoError Bytes
  | absent => .error .notFound
  | file bytes => .ok bytes
  | unreadable _ reason => .error (.other reason)

theorem read_eq_ok {node : Node} {bytes : Bytes} : node.read = .ok bytes ↔ node = .file bytes := by
  cases node <;> simp [read]

end Node

/-- The files of a directory by the bytes of their names. A listing that breaks off does so with
an error after some of the names. -/
structure Listing where
  files : AList (fun _ : Bytes => Node)
  breaksOff : Option (Nat × IoError)

namespace Listing

def empty : Listing := ⟨∅, none⟩

/-- What `read_dir` gives, name by name. -/
def readDir (l : Listing) : List Bytes × Option IoError :=
  match l.breaksOff with
  | none => (l.files.keys, none)
  | some (n, e) => (l.files.keys.take n, some e)

def node (l : Listing) (name : Bytes) : Node :=
  (l.files.lookup name).getD .absent

/-- The listing with a file created, or replaced when its name is taken. -/
def put (l : Listing) (name : Bytes) (node : Node) : Listing :=
  { l with files := l.files.insert name node }

theorem node_put_self (l : Listing) (name : Bytes) (node : Node) :
    (l.put name node).node name = node := by
  simp [put, Listing.node]

theorem node_put_ne (l : Listing) {name other : Bytes} (node : Node) (h : other ≠ name) :
    (l.put name node).node other = l.node other := by
  simp [put, Listing.node, AList.lookup_insert_ne h]

theorem mem_keys_put {l : Listing} {name other : Bytes} {node : Node} :
    other ∈ (l.put name node).files.keys ↔ other = name ∨ other ∈ l.files.keys :=
  AList.mem_insert l.files

end Listing

/-- The directory `chunks` of an archive. -/
inductive ChunksDir
  | absent
  | notDirectory
  | directory (listing : Listing)

def ChunksDir.node : ChunksDir → String → Node
  | absent, _ => .absent
  | notDirectory, _ => .unreadable false "Not a directory (os error 20)"
  | directory listing, name => listing.node (intoBytes name)

/-- A directory that may hold a chronicle entry, with the files an entry is made of. -/
structure SealDir where
  path : String
  manifestJson : Node
  manifestSig : Node
  rotationJson : Node
  chunks : ChunksDir

def SealDir.empty (path : String) : SealDir :=
  ⟨path, .absent, .absent, .absent, .absent⟩

end Sealedge
