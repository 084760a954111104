import Mathlib.Data.List.Sort
import Mathlib.Data.List.Lex

/-!
# Content hashes of directories

`hash_data_dir` of `crates/queryfabric-content-hash/src/lib.rs`. The names of the data files and the
hashes of their contents are fed to one hasher, one after the other (`Listing.stream`).
`determined_iff` says which listings the stream determines: nothing marks where a name ends, so that
a name may take in the hashes and names of other files.
-/

namespace QueryFabric.ContentHash

/-- Bytes. -/
abbrev Bytes : Type := List UInt8

/-- `blake3::Hash`. -/
structure Digest where
  bytes : Bytes
  length_eq : bytes.length = 32
deriving DecidableEq

/-- A digit of a hexadecimal number. -/
def hexDigit (n : UInt8) : Char := Char.ofNat (if n < 10 then 48 + n.toNat else 87 + n.toNat)

/-- `blake3::Hash::to_hex`. -/
def Digest.toHex (digest : Digest) : String :=
  String.ofList (digest.bytes.flatMap fun byte => [hexDigit (byte / 16), hexDigit (byte % 16)])

/-- `HashError`. -/
inductive HashError
  | fileNotFound (path : String)
  | io (message : String)
  | emptyDir
deriving DecidableEq, Repr

/-- An entry of a directory, with what reading it gives. -/
structure DirEntry where
  name : Bytes
  isFile : Bool
  content : Except HashError Bytes

section Hash

variable (blake3 : Bytes → Digest) (toStringLossy : Bytes → String)

/-- `hash_file`, which feeds the content to the hasher in parts. -/
def hashFile (entry : DirEntry) : Except HashError Digest := do
  let content ← entry.content
  return blake3 content

/-- The files that are hashed. -/
def isDataFile (metadataPrefix : String) (entry : DirEntry) : Bool :=
  entry.isFile && !metadataPrefix.toList.isPrefixOf (toStringLossy entry.name).toList

/-- `collect_data_files` of the entries that could be read. -/
def collectDataFiles (dir : Except HashError (List DirEntry)) (metadataPrefix : String) :
    Except HashError (List DirEntry) := do
  let entries ← dir
  return (entries.filter (isDataFile toStringLossy metadataPrefix)).insertionSort fun a b =>
    a.name ≤ b.name

/-- The bytes that the loop of `hash_data_dir` feeds to the combined hasher. -/
def combinedBytes : List DirEntry → Except HashError Bytes
  | [] => return []
  | file :: files => do
    let fileHash ← hashFile blake3 file
    let rest ← combinedBytes files
    return file.name ++ fileHash.bytes ++ rest

/-- `hash_data_dir`. -/
def hashDataDir (dir : Except HashError (List DirEntry)) (metadataPrefix : String) :
    Except HashError String := do
  let files ← collectDataFiles toStringLossy dir metadataPrefix
  if files.isEmpty then throw .emptyDir
  else do
    let combined ← combinedBytes blake3 files
    return (blake3 combined).toHex

end Hash

/-! ## Listings -/

/-- The names of the files of a directory in order, with the hashes of their contents. -/
@[ext]
structure Listing where
  files : List (Bytes × Digest)
  named : ∀ file ∈ files, file.1 ≠ []
  sorted : (files.map Prod.fst).Pairwise (· < ·)

/-- The bytes of the files of a listing. -/
def streamOf (files : List (Bytes × Digest)) : Bytes :=
  files.flatMap fun file => file.1 ++ file.2.bytes

/-- What the combined hasher reads of a listing. -/
def Listing.stream (listing : Listing) : Bytes := streamOf listing.files

/-- A stream says which listing it comes from. -/
def Determined (listing : Listing) : Prop :=
  ∀ other : Listing, other.stream = listing.stream → other = listing

/-- A name does not read as a name, a hash and a later name. -/
def Unsplittable (name : Bytes) : Prop :=
  ∀ first digest last : Bytes, digest.length = 32 → first ≠ [] → last ≠ [] → first < last →
    name ≠ first ++ digest ++ last

/-! ## What is hashed is the stream of a listing -/

section Connect

variable {blake3 : Bytes → Digest} {toStringLossy : Bytes → String}

/-- What is hashed is each file by its name, with a digest of its content. -/
theorem combinedBytes_eq_ok : ∀ {files : List DirEntry} {combined : Bytes},
    combinedBytes blake3 files = .ok combined →
      ∃ hashed : List (Bytes × Digest), hashed.map Prod.fst = files.map DirEntry.name ∧
      streamOf hashed = combined ∧
        ∀ file ∈ hashed, ∃ entry ∈ files, entry.name = file.1 ∧ hashFile blake3 entry = .ok file.2
  | [], combined, h => by
    cases h
    exact ⟨[], rfl, rfl, List.forall_mem_nil _⟩
  | entry :: files, combined, h => by
    unfold combinedBytes at h
    -- The file is hashed first, and then the rest of the listing.
    cases hentry : hashFile blake3 entry with
    | error e =>
      rw [hentry] at h
      cases h
    | ok digest =>
      cases hrest : combinedBytes blake3 files with
      | error e =>
        rw [hentry, hrest] at h
        cases h
      | ok rest =>
        rw [hentry, hrest] at h
        cases h
        obtain ⟨hashed, hnames, rfl, hfiles⟩ := combinedBytes_eq_ok hrest
        refine ⟨(entry.name, digest) :: hashed,
          by rw [List.map_cons, hnames, List.map_cons], rfl, ?_⟩
        refine List.forall_mem_cons.mpr
          ⟨⟨entry, List.mem_cons_self, rfl, hentry⟩, fun file hfile => ?_⟩
        obtain ⟨other, hother, hname, hhash⟩ := hfiles file hfile
        exact ⟨other, List.mem_cons_of_mem _ hother, hname, hhash⟩

/-- A directory whose entries have distinct names is hashed as the stream of the listing of its data
files. -/
theorem hashDataDir_eq_ok {entries : List DirEntry} {metadataPrefix hex : String}
    (hnamed : ∀ entry ∈ entries, entry.name ≠ []) (hdistinct : (entries.map DirEntry.name).Nodup)
    (h : hashDataDir blake3 toStringLossy (.ok entries) metadataPrefix = .ok hex) :
    ∃ listing : Listing, hex = (blake3 listing.stream).toHex ∧
      listing.files.map Prod.fst =
        ((entries.filter (isDataFile toStringLossy metadataPrefix)).insertionSort
        fun a b => a.name ≤ b.name).map DirEntry.name ∧
      ∀ file ∈ listing.files, ∃ entry ∈ entries, entry.name = file.1 ∧
      hashFile blake3 entry = .ok file.2 := by
  have : Std.Total fun a b : DirEntry => a.name ≤ b.name := ⟨fun a b => List.le_total a.name b.name⟩
  have : IsTrans DirEntry fun a b => a.name ≤ b.name := ⟨fun _ _ _ => List.le_trans⟩
  unfold hashDataDir at h
  change (if List.isEmpty _ then _ else _) = _ at h
  split at h
  · cases h
  -- The files are the data files of the directory, sorted by name.
  · generalize hfiles : ((entries.filter (isDataFile toStringLossy metadataPrefix)).insertionSort
      fun a b => a.name ≤ b.name) = files at h ⊢
    have hmem {entry : DirEntry} (hentry : entry ∈ files) : entry ∈ entries := by
      rw [← hfiles, List.mem_insertionSort] at hentry
      exact List.mem_of_mem_filter hentry
    -- Distinct names make the order strict.
    have hsorted : (files.map DirEntry.name).Pairwise (· < ·) := by
      have hle : files.Pairwise fun a b => a.name ≤ b.name := by
        rw [← hfiles]
        exact List.pairwise_insertionSort _ _
      have hnodup : (files.map DirEntry.name).Nodup := by
        rw [← hfiles, ((List.perm_insertionSort _ _).map _).nodup_iff]
        exact hdistinct.sublist (List.filter_sublist.map _)
      refine (List.pairwise_map.mpr hle).imp₂ (fun a b hle hne => ?_) hnodup
      exact Std.lt_of_le_of_ne hle hne
    -- A file that cannot be hashed ends the loop with its error.
    cases hcombined : combinedBytes blake3 files with
    | error e =>
      rw [hcombined] at h
      cases h
    | ok combined =>
      rw [hcombined] at h
      cases h
      obtain ⟨hashed, hnames, rfl, hhashed⟩ := combinedBytes_eq_ok hcombined
      refine ⟨⟨hashed, fun file hfile => ?_, by rw [hnames]; exact hsorted⟩, rfl, hnames,
        fun file hfile => ?_⟩
      · obtain ⟨entry, hentry, hname, -⟩ := hhashed file hfile
        rw [← hname]
        exact hnamed entry (hmem hentry)
      · obtain ⟨entry, hentry, hname, hhash⟩ := hhashed file hfile
        exact ⟨entry, hmem hentry, hname, hhash⟩

end Connect

/-! ## Which listings are determined -/

/-- The bytes of a file come first. -/
theorem streamOf_cons (file : Bytes × Digest) (files : List (Bytes × Digest)) :
    streamOf (file :: files) = file.1 ++ file.2.bytes ++ streamOf files := List.flatMap_cons

/-- The bytes of one file. -/
theorem streamOf_singleton (file : Bytes × Digest) : streamOf [file] = file.1 ++ file.2.bytes := by
  rw [streamOf_cons]
  exact List.append_nil _

/-- The stream of some files ends with a hash, and begins with the first name. -/
theorem streamOf_eq_append (file : Bytes × Digest) (files : List (Bytes × Digest)) :
    ∃ (rest : Bytes) (digest : Digest), streamOf (file :: files) = file.1 ++ rest ++
      digest.bytes := by
  induction files generalizing file with
  | nil => exact ⟨[], file.2, by rw [streamOf_singleton, List.append_nil]⟩
  | cons next files ih =>
    obtain ⟨rest, digest, hnext⟩ := ih next
    refine ⟨file.2.bytes ++ next.1 ++ rest, digest, ?_⟩
    rw [streamOf_cons, hnext]
    simp only [List.append_assoc]

/-- The listing of one file. -/
def Listing.single (name : Bytes) (digest : Digest) (hname : name ≠ []) : Listing where
  files := [(name, digest)]
  named := List.forall_mem_singleton.mpr hname
  sorted := List.pairwise_singleton _ _

/-- The listing of two files. -/
def Listing.pair (name name' : Bytes) (digest digest' : Digest) (hname : name ≠ [])
    (hname' : name' ≠ []) (hlt : name < name') : Listing where
  files := [(name, digest), (name', digest')]
  named := List.forall_mem_cons.mpr ⟨hname, List.forall_mem_singleton.mpr hname'⟩
  sorted := List.pairwise_pair.mpr hlt

/-- A listing of several files reads as that of one file, whose name takes in all but the last
hash. -/
theorem not_determined_of_two {listing : Listing} {file next : Bytes × Digest}
    {files : List (Bytes × Digest)}
    (hfiles : listing.files = file :: next :: files) : ¬Determined listing := by
  obtain ⟨rest, digest, hstream⟩ := streamOf_eq_append file (next :: files)
  have hname : file.1 ++ rest ≠ [] := by
    have hfirst := listing.named file (hfiles ▸ List.mem_cons_self)
    exact List.append_ne_nil_of_left_ne_nil hfirst rest
  intro h
  have heq : Listing.single (file.1 ++ rest) digest hname = listing := by
    refine h _ ?_
    rw [Listing.stream, Listing.stream, hfiles, hstream]
    exact streamOf_singleton _
  have hlength := congrArg (List.length ∘ Listing.files) heq
  rw [Function.comp_apply, Function.comp_apply, hfiles] at hlength
  simp [Listing.single] at hlength

/-- A file whose name splits reads as two files. -/
theorem unsplittable_of_determined {listing : Listing} {name : Bytes} {digest : Digest}
    (hfiles : listing.files = [(name, digest)]) (h : Determined listing) : Unsplittable name := by
  intro first middle last hmiddle hfirst hlast hlt hname
  have heq : Listing.pair first last ⟨middle, hmiddle⟩ digest hfirst hlast hlt = listing := by
    refine h _ ?_
    rw [Listing.stream, Listing.stream, hfiles, streamOf_singleton, hname]
    show streamOf [(first, ⟨middle, hmiddle⟩), (last, digest)] = _
    rw [streamOf_cons, streamOf_singleton]
    simp only [List.append_assoc]
  have hlength := congrArg (List.length ∘ Listing.files) heq
  rw [Function.comp_apply, Function.comp_apply, hfiles] at hlength
  simp [Listing.pair] at hlength

/-- The stream of a file whose name does not split is that of no other listing. -/
theorem determined_of_unsplittable {listing : Listing} {name : Bytes} {digest : Digest}
    (hfiles : listing.files = [(name, digest)]) (h : Unsplittable name) : Determined listing := by
  intro other hstream
  rw [Listing.stream, Listing.stream, hfiles, streamOf_singleton] at hstream
  refine Listing.ext ?_
  rw [hfiles]
  have hcut {before : Bytes} {end_ : Digest} (heq : before ++ end_.bytes = name ++ digest.bytes) :
      before = name ∧ end_ = digest := by
    obtain ⟨hname, hdigest⟩ := List.append_inj' heq (end_.length_eq.trans digest.length_eq.symm)
    exact ⟨hname, by cases end_; cases digest; cases hdigest; rfl⟩
  cases hother : other.files with
  | nil =>
    -- No bytes at all are those of a hash.
    rw [hother] at hstream
    have hlength := congrArg List.length hstream
    rw [List.length_append, digest.length_eq] at hlength
    simp [streamOf] at hlength
  | cons file files =>
    cases files with
    | nil =>
      rw [hother, streamOf_singleton] at hstream
      obtain ⟨hname, hdigest⟩ := hcut hstream
      rw [← hname, ← hdigest]
    | cons next files =>
      -- The names of two files with the hash between them make up the name.
      obtain ⟨rest, end_, hrest⟩ := streamOf_eq_append next files
      rw [hother, streamOf_cons, hrest, ← List.append_assoc] at hstream
      obtain ⟨hname, -⟩ := hcut hstream
      have hfirst := other.named file (hother ▸ List.mem_cons_self)
      have hnext := other.named next (hother ▸ List.mem_cons_of_mem _ List.mem_cons_self)
      have hlt : file.1 < next.1 := by
        have hsorted := other.sorted
        rw [hother] at hsorted
        exact (List.pairwise_cons.mp hsorted).1 next.1 List.mem_cons_self
      exact absurd hname.symm (h file.1 file.2.bytes (next.1 ++ rest) file.2.length_eq hfirst
        (List.append_ne_nil_of_left_ne_nil hnext rest) (List.Lex.append_right _ rest hlt))

/-- A listing is determined exactly when it has no file, or one whose name does not split. -/
theorem determined_iff (listing : Listing) : Determined listing ↔
    listing.files = [] ∨ ∃ name digest, listing.files = [(name, digest)] ∧ Unsplittable name := by
  constructor
  · intro h
    cases hfiles : listing.files with
    | nil => exact .inl rfl
    | cons file files =>
      cases files with
      | nil => exact .inr ⟨file.1, file.2, rfl, unsplittable_of_determined hfiles h⟩
      | cons next files => exact absurd h (not_determined_of_two hfiles)
  · rintro (hnil | ⟨name, digest, hfiles, hname⟩)
    · intro other hstream
      rw [Listing.stream, Listing.stream, hnil] at hstream
      refine Listing.ext ?_
      rw [hnil]
      refine List.eq_nil_iff_forall_not_mem.mpr fun file hfile => ?_
      -- A file feeds 32 bytes at least.
      have hbytes := List.flatMap_eq_nil_iff.mp hstream file hfile
      have hdigest := file.2.length_eq
      rw [(List.append_eq_nil_iff.mp hbytes).2] at hdigest
      cases hdigest
    · exact determined_of_unsplittable hfiles hname

/-- The hash of 32 letters `h`. -/
def letters : Digest := ⟨List.replicate 32 104, rfl⟩

/-- The files `a` and `b` are hashed as one whose name takes in the hash of the first. -/
theorem not_determined_letters : ¬∀ listing : Listing, Determined listing := by
  intro h
  have heq := h (.pair [97] [98] letters letters (by decide) (by decide) (by decide))
    (.single ([97] ++ letters.bytes ++ [98]) letters (by decide)) rfl
  exact absurd (congrArg (List.length ∘ Listing.files) heq) (by decide)

end QueryFabric.ContentHash
