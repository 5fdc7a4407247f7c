import CloudProvider.Pipeline.Stemcells
import CloudProvider.Proofs.Changes
import CloudProvider.Proofs.Clock
import CloudProvider.Proofs.GzipMembers
import CloudProvider.Proofs.TarListing
import Mathlib.Tactic.MkIffOfInductiveProp

/-! The image of a stemcell. Of the entries that the stemcell lists, the first file that goes by the name
of the image is unpacked, and nothing else is ever uploaded. A stemcell that is at fault before that
entry, that has none, or whose image is spoilt, leads to no call at all. -/

namespace CloudProvider

open Archive
open Archive.Gzip (Member Spoilt)
open Archive.Stemcell (isImage imageName)

namespace Archive.Stemcell

/-- A plain file whose path has no other names than that of the image, but for a dot in front. -/
def IsImageFile (e : Tar.Entry) : Prop :=
  e.isFile = true ∧ (components e.path = [Text.Utf8.encode imageName] ∨
    components e.path = [[46], Text.Utf8.encode imageName])

theorem isImage_iff {e : Tar.Entry} : isImage e = true ↔ IsImageFile e := by
  simp [isImage, isImagePath, IsImageFile]

example : (["image", "./image", ".//image/", "image/."].all fun path => isImagePath (Text.Utf8.encode path)) ∧
    ["a/image", "/image", "../image", "image2"].all fun path => !isImagePath (Text.Utf8.encode path) := by
  decide +kernel

theorem isImage_of_not {e : Tar.Entry} (other : ¬ IsImageFile e) : isImage e = false :=
  Bool.eq_false_iff.mpr fun image => other (isImage_iff.mp image)

def listed (file : Bytes) : Tar.Listing :=
  Tar.listing (Gzip.unpack (.ofBytes file))

/-- The first of the entries that go by the name of the image. -/
def IsImageOf (archive : Tar.Listing) (e : Tar.Entry) : Prop :=
  ∃ before after, archive.entries = before ++ e :: after ∧ (∀ b ∈ before, ¬ IsImageFile b) ∧ IsImageFile e

/-- What is packed in the image of the stemcell. -/
def Packs (file packed : Bytes) : Prop :=
  ∃ e, IsImageOf (listed file) e ∧ e.contents.bytes = packed

variable {file : Bytes}

theorem listed_of_begins {m : Member} (begins : m.Begins file) :
    listed file = Tar.listing (.ofBytes m.contents) := by
  have unpacked : (Gzip.unpack (.ofBytes file)).contents = .ok m.contents :=
    Gzip.contents_unpack_eq_ok_iff.mpr ⟨m, begins, rfl⟩
  rw [listed, Source.eq_ofBytes unpacked]

def packed? (file : Bytes) : Except Fault (Option Source) :=
  (listed file).first fun e => if isImage e then some e.contents else none

theorem image?_eq : image? (.ofBytes file) =
    match packed? file with
    | .error fault => .error fault
    | .ok none => .ok none
    | .ok (some packed) => (Gzip.unpack packed).contents.map some := by
  have found : Tar.find (fun e => if isImage e then some e.contents else none) (Gzip.unpack (.ofBytes file)) =
      packed? file := Tar.find_eq ..
  rw [image?, found]
  rcases packed? file with fault | _ | packed
  · rfl
  · rfl
  · change (do return some (← (Gzip.unpack packed).contents)) = Except.map some _
    rcases (Gzip.unpack packed).contents <;> rfl

theorem image?_of_none (none : ∀ e ∈ (listed file).entries, ¬ IsImageFile e) :
    image? (.ofBytes file) =
      match (listed file).fault with
      | .none => .ok .none
      | some fault => .error fault := by
  have unfound : packed? file = _ := Tar.Listing.first_of_none fun e mem => by
    rw [isImage_of_not (none e mem)]
    rfl
  rw [image?_eq, unfound]
  rcases (listed file).fault <;> rfl

theorem image?_of_isImageOf {e : Tar.Entry} (first : IsImageOf (listed file) e) :
    image? (.ofBytes file) = (Gzip.unpack e.contents).contents.map some := by
  obtain ⟨before, after, split, none, image⟩ := first
  have found : packed? file = .ok (some e.contents) :=
    Tar.Listing.first_of_mem split (fun b mem => by rw [isImage_of_not (none b mem)]; rfl)
      (by rw [isImage_iff.mpr image]; rfl)
  rw [image?_eq, found]

theorem image?_of_begins {packed : Bytes} {m : Member} (packs : Packs file packed)
    (begins : m.Begins packed) :
    image? (.ofBytes file) = .ok (some m.contents) := by
  obtain ⟨e, first, rfl⟩ := packs
  rw [image?_of_isImageOf first, Gzip.contents_unpack_eq_ok_iff.mpr ⟨m, begins, rfl⟩]
  rfl

theorem image?_of_spoilt {packed : Bytes} (packs : Packs file packed) (spoilt : Spoilt packed) :
    ∃ fault, image? (.ofBytes file) = .error fault := by
  obtain ⟨e, first, rfl⟩ := packs
  obtain ⟨fault, failed⟩ := Gzip.contents_unpack_eq_error_iff.mpr spoilt
  rw [image?_of_isImageOf first, failed]
  exact ⟨fault, rfl⟩

end Archive.Stemcell

/-- Every reply is one that the surroundings give behind the deeds that come before. -/
def History.Follows (w : Surroundings) (deeds : History) : Prop :=
  ∀ before e (reply : e.Reply) after, deeds = before ++ ⟨e, reply⟩ :: after →
    ∃ past : History, past.deeds = before ∧ reply = w past e

theorem History.Follows.concat {w : Surroundings} {past : History} (follows : past.deeds.Follows w)
    (e : Effect) : (History.deeds (past ++ [⟨e, w past e⟩])).Follows w := by
  rw [deeds_append]
  by_cases deed : e.isDeed
  · have one : History.deeds [⟨e, w past e⟩] = [⟨e, w past e⟩] :=
      List.filter_eq_self.mpr (by simpa using deed)
    rw [one]
    intro before e' reply after split
    -- Either it is the last reply that is asked about, or one that has been there before.
    rcases List.eq_nil_or_concat after with rfl | ⟨after, last, rfl⟩
    · obtain ⟨earlier, same⟩ := List.append_inj' split rfl
      cases same
      exact ⟨past, earlier, rfl⟩
    · have parted : past.deeds ++ [⟨e, w past e⟩] = (before ++ ⟨e', reply⟩ :: after) ++ [last] := by
        simpa using split
      exact follows before e' reply after (List.append_inj' parted rfl).1
  · have none : History.deeds [⟨e, w past e⟩] = [] := List.filter_eq_nil_iff.mpr (by simpa using deed)
    rw [none, List.append_nil]
    exact follows

theorem Program.follows_play {α : Type} (w : Surroundings) (p : Program α) {past : History}
    (follows : past.deeds.Follows w) : (p.play w past).2.deeds.Follows w := by
  induction p generalizing past with
  | done a => exact follows
  | step e next ih => exact ih (w past e) (follows.concat e)

theorem Pipeline.follows_play {α : Type} (w : Surroundings) (p : Pipeline α) :
    (p.play w []).2.deeds.Follows w :=
  Program.follows_play w p.run fun before _ _ _ split => by cases before <;> cases split

/-- A file that has just been written holds what has been written. -/
def Surroundings.KeepsFiles (w : Surroundings) : Prop :=
  ∀ (past before : History) path bytes, past.deeds = before ++ ([⟨.writeFile path bytes, .ok ()⟩] : History) →
    w past (.readFile path) = .ok bytes

theorem History.Follows.read_back {w : Surroundings} {deeds before after : History}
    (follows : deeds.Follows w) (keeps : w.KeepsFiles) {path : String} {bytes : Bytes}
    {reply : Except Files.Fault Bytes}
    (split : deeds = before ++ ⟨.writeFile path bytes, .ok ()⟩ :: ⟨.readFile path, reply⟩ :: after) :
    reply = .ok bytes := by
  have parted : deeds = (before ++ ([⟨.writeFile path bytes, .ok ()⟩] : History)) ++
      ⟨.readFile path, reply⟩ :: after := by
    rw [split, List.append_assoc]
    rfl
  obtain ⟨past, same, rfl⟩ := follows _ _ _ _ parted
  exact keeps past before path bytes same

def History.images (h : History) : List Bytes :=
  h.filterMap fun x =>
    match x.effect with
    | .call (.submit (.createImage ⟨_, .ok image⟩ _)) => some image
    | _ => none

theorem History.images_append (a b : History) : History.images (a ++ b) = a.images ++ b.images :=
  List.filterMap_append

theorem History.images_deeds (h : History) : h.deeds.images = h.images := by
  rw [images, deeds, List.filterMap_filter]
  congr 1
  funext x
  obtain ⟨e, reply⟩ := x
  cases e <;> rfl

theorem Change.images_deeds {c : Change} {file name : String} {image : Bytes}
    (same : c.submission = .createImage ⟨file, .ok image⟩ name) : c.deeds.images = [image] := by
  cases c with
  | declined submission error =>
    obtain rfl : submission = _ := same
    rfl
  | followed submission task polls =>
    obtain rfl : submission = _ := same
    have none : History.images (polls.map (pollOf task.id)) = [] :=
      List.filterMap_eq_nil_iff.mpr fun x mem => by
        obtain ⟨answer, -, rfl⟩ := List.mem_map.mp mem
        rfl
    exact congrArg (image :: ·) none

namespace Pipeline

variable {s : Settings} {path file : String} {deeds : History} {result : Except Halt ImageId}

/-- What becomes of an image that has been unpacked: it is written to the file, and goes up from there in
one change. Its name comes back if the change is completed and has one. -/
inductive Uploads (s : Settings) (file : String) (image : Bytes) : History → Except Halt ImageId → Prop
  | unwritten (fault : Files.Fault) :
      Uploads s file image [⟨.writeFile file image, .error fault⟩] (.error (.failed (.io (.file fault))))
  | stopped (upload : Change) (halt : Halt)
      (same : upload.submission = .createImage ⟨file, .ok image⟩ imageName)
      (yields : upload.Yields s.policy (.error halt)) :
      Uploads s file image
        (⟨.writeFile file image, .ok ()⟩ :: ⟨.readFile file, .ok image⟩ :: upload.deeds) (.error halt)
  | unnamed (upload : Change) (task : Task)
      (same : upload.submission = .createImage ⟨file, .ok image⟩ imageName)
      (yields : upload.Yields s.policy (.ok task)) (empty : task.entity.id = "") :
      Uploads s file image
        (⟨.writeFile file image, .ok ()⟩ :: ⟨.readFile file, .ok image⟩ :: upload.deeds)
        (.error (.failed (.cloud (.internal (.nameless task.id "an image id")))))
  | named (upload : Change) (task : Task)
      (same : upload.submission = .createImage ⟨file, .ok image⟩ imageName)
      (yields : upload.Yields s.policy (.ok task)) (filled : task.entity.id ≠ "") :
      Uploads s file image
        (⟨.writeFile file image, .ok ()⟩ :: ⟨.readFile file, .ok image⟩ :: upload.deeds)
        (.ok ⟨task.entity.id⟩)

theorem Uploads.images_of_ok {image : Bytes} {id : ImageId} (uploads : Uploads s file image deeds (.ok id)) :
    deeds.images = [image] := by
  cases uploads with
  | named upload task same yields filled => exact upload.images_deeds same

def imageFile (directory : String) : String :=
  directory ++ "/" ++ imageName

def upload (s : Settings) (path file : String) (image : Bytes) : Pipeline ImageId := do
  orFault (← perform (.writeFile file image))
  emit (.info "extracted stemcell image" [("stemcell", .text path)])
  let contents ← perform (.readFile file)
  make s "upload image" "an image id" .image (.createImage ⟨file, contents⟩ imageName)

def handOn (s : Settings) (path directory : String) : Except ActionError Bytes → Pipeline ImageId
  | .error e => fail e
  | .ok image => upload s path (imageFile directory) image

theorem createStemcell_eq (s : Settings) (path : String) :
    createStemcell s path = withScratch "stemcell" fun _ directory =>
      perform (.readFile path) >>= fun found => handOn s path directory (unpackedImage path found) :=
  rfl

theorem uploads_of_does {image : Bytes} (does : (upload s path file image).Does deeds result)
    (keeps : ∀ reply after, deeds = ⟨.writeFile file image, .ok ()⟩ :: ⟨.readFile file, reply⟩ :: after →
      reply = .ok image) :
    Uploads s file image deeds result := by
  rw [upload, does_perform_bind_iff] at does
  obtain ⟨fault | ⟨⟩, _, does, rfl⟩ := does
  · obtain ⟨rfl, rfl⟩ := does
    exact .unwritten fault
  · rw [does_orFault_bind_iff] at does
    dsimp only at does
    rw [does_emit_bind_iff, does_perform_bind_iff] at does
    obtain ⟨contents, rest, does, rfl⟩ := does
    obtain rfl : contents = .ok image := keeps contents rest rfl
    obtain ⟨c, same, rfl, ⟨halt, yields, rfl⟩ | ⟨task, yields, ⟨empty, rfl⟩ | ⟨filled, rfl⟩⟩⟩ :=
      change_of_does_make does
    · exact .stopped c halt same yields
    · exact .unnamed c task same yields empty
    · exact .named c task same yields filled

def Handles (s : Settings) (path directory : String) (found : Except Files.Fault Bytes) (deeds : History)
    (result : Except Halt ImageId) : Prop :=
  match unpackedImage path found with
  | .error e => deeds = [] ∧ result = .error (.failed e)
  | .ok image => Uploads s (imageFile directory) image deeds result

theorem does_createStemcell {w : Surroundings} (does : (createStemcell s path).Does deeds result)
    (follows : deeds.Follows w) (keeps : w.KeepsFiles) :
    ∃ name,
      (∃ fault, deeds = [⟨.freshName "stemcell", name⟩, ⟨.makeScratch name, .error fault⟩] ∧
        result = .error (.failed (.io (.file fault)))) ∨
      ∃ directory found inner, Handles s path directory found inner result ∧
        deeds = ⟨.freshName "stemcell", name⟩ :: ⟨.makeScratch name, .ok directory⟩ ::
          ⟨.readFile path, found⟩ :: inner ++ [⟨.discardScratch directory, ()⟩] := by
  rw [createStemcell_eq] at does
  obtain ⟨name, failed | ⟨directory, inner, works, rfl⟩⟩ := does_withScratch_iff.mp does
  · exact ⟨name, .inl failed⟩
  rw [does_perform_bind_iff] at works
  obtain ⟨found, inner, works, rfl⟩ := works
  refine ⟨name, .inr ⟨directory, found, inner, ?_, rfl⟩⟩
  rw [Handles]
  rcases unpacked : unpackedImage path found with e | image
  · rw [unpacked] at works
    exact works
  · rw [unpacked] at works
    refine uploads_of_does works ?_
    rintro reply after rfl
    -- Nothing is done between writing and reading, but for an event that is emitted.
    let before : History :=
      [⟨.freshName "stemcell", name⟩, ⟨.makeScratch name, .ok directory⟩, ⟨.readFile path, found⟩]
    exact follows.read_back keeps
      (show _ = before ++ _ :: _ :: (after ++ [⟨.discardScratch directory, ()⟩]) from rfl)

theorem images_of_deeds {h inner : History} {name directory : String} {found : Except Files.Fault Bytes}
    (deeds : h.deeds = ⟨.freshName "stemcell", name⟩ :: ⟨.makeScratch name, .ok directory⟩ ::
      ⟨.readFile path, found⟩ :: inner ++ [⟨.discardScratch directory, ()⟩]) : h.images = inner.images := by
  rw [← History.images_deeds, deeds, History.images_append]
  exact List.append_nil _

namespace Handles

variable {directory : String} {bytes : Bytes}

theorem of_missing {fault : Files.Fault} (handles : Handles s path directory (.error fault) deeds result) :
    deeds = [] ∧ result = .error (.failed (.io (.file fault))) :=
  handles

theorem of_none (none : ∀ e ∈ (Stemcell.listed bytes).entries, ¬ Stemcell.IsImageFile e)
    (handles : Handles s path directory (.ok bytes) deeds result) :
    deeds = [] ∧ result = .error (.failed (match (Stemcell.listed bytes).fault with
      | .none => .invalidArgument (.noImage path)
      | some fault => .io (.archive fault))) := by
  have unpacked := Stemcell.image?_of_none none
  rw [Handles, unpackedImage, unpacked] at handles
  rcases ended : (Stemcell.listed bytes).fault with _ | fault
  · rwa [ended] at handles
  · rwa [ended] at handles

theorem of_begins {packed : Bytes} {m : Member} (packs : Stemcell.Packs bytes packed)
    (begins : m.Begins packed) (handles : Handles s path directory (.ok bytes) deeds result) :
    Uploads s (imageFile directory) m.contents deeds result := by
  rwa [Handles, unpackedImage, Stemcell.image?_of_begins packs begins] at handles

theorem of_spoilt {packed : Bytes} (packs : Stemcell.Packs bytes packed) (spoilt : Spoilt packed)
    (handles : Handles s path directory (.ok bytes) deeds result) :
    deeds = [] ∧ ∃ fault, result = .error (.failed (.io (.archive fault))) := by
  obtain ⟨fault, failed⟩ := Stemcell.image?_of_spoilt packs spoilt
  rw [Handles, unpackedImage, failed] at handles
  exact ⟨handles.1, fault, handles.2⟩

end Handles

theorem handles_of_read {s : Settings} {path : String} {w : Surroundings} (keeps : w.KeepsFiles)
    {name directory : String} {found : Except Files.Fault Bytes} {rest : History}
    (read : ((createStemcell s path).play w []).2.deeds = ⟨.freshName "stemcell", name⟩ ::
      ⟨.makeScratch name, .ok directory⟩ :: ⟨.readFile path, found⟩ :: rest) :
    ∃ inner, Handles s path directory found inner ((createStemcell s path).play w []).1 ∧
      ((createStemcell s path).play w []).2.images = inner.images := by
  obtain ⟨_, ⟨fault, deeds, -⟩ | ⟨_, _, inner, handles, deeds⟩⟩ :=
    does_createStemcell (does_play (createStemcell s path) w) (follows_play w _) keeps
  · rw [read] at deeds
    cases deeds
  · have images := images_of_deeds deeds
    rw [read] at deeds
    cases deeds
    exact ⟨inner, handles, images⟩

/-- What is uploaded of a stemcell, if anything. -/
theorem createStemcell_uploads (s : Settings) (path : String) (w : Surroundings)
    (keeps : w.KeepsFiles) :
    let run := (createStemcell s path).play w []
    ∃ name,
      (∃ fault, run.2.deeds = [⟨.freshName "stemcell", name⟩, ⟨.makeScratch name, .error fault⟩] ∧
        run.1 = .error (.failed (.io (.file fault)))) ∨
      ∃ directory found inner,
        run.2.deeds = ⟨.freshName "stemcell", name⟩ :: ⟨.makeScratch name, .ok directory⟩ ::
          ⟨.readFile path, found⟩ :: inner ++ [⟨.discardScratch directory, ()⟩] ∧
        (∀ fault, found = .error fault → inner = [] ∧ run.1 = .error (.failed (.io (.file fault)))) ∧
        ∀ bytes, found = .ok bytes →
          let archive := Stemcell.listed bytes
          ((∀ e ∈ archive.entries, ¬ Stemcell.IsImageFile e) → inner = [] ∧
            run.1 = .error (.failed (match archive.fault with
              | none => .invalidArgument (.noImage path)
              | some fault => .io (.archive fault)))) ∧
          ∀ packed, Stemcell.Packs bytes packed →
            (∀ m : Member, m.head.Short → packed = m.bytes →
              Uploads s (imageFile directory) m.contents inner run.1 ∧
              ∀ id, run.1 = .ok id → run.2.images = [m.contents]) ∧
            (Spoilt packed → inner = [] ∧ ∃ fault, run.1 = .error (.failed (.io (.archive fault)))) ∧
            (Spoilt packed ↔ ∀ m : Member, ¬ m.Begins packed) ∧
            ∀ (m : Member) n, n < m.bytes.length → packed = m.bytes.take n → Spoilt packed := by
  intro run
  obtain ⟨name, failed | ⟨directory, found, inner, handles, deeds⟩⟩ :=
    does_createStemcell (does_play (createStemcell s path) w) (follows_play w _) keeps
  · exact ⟨name, .inl failed⟩
  refine ⟨name, .inr ⟨directory, found, inner, deeds, ?missing, ?read⟩⟩
  case missing =>
    rintro fault rfl
    exact handles.of_missing
  case read =>
    rintro bytes rfl archive
    refine ⟨fun none => handles.of_none none, fun packed packs => ⟨?whole, fun spoilt =>
      handles.of_spoilt packs spoilt, Gzip.spoilt_iff, ?cut⟩⟩
    case whole =>
      rintro m short rfl
      have uploads := handles.of_begins packs (Member.begins_self short)
      refine ⟨uploads, fun id ok => ?_⟩
      rw [ok] at uploads
      rw [images_of_deeds deeds, uploads.images_of_ok]
    case cut =>
      rintro m n cut rfl
      exact Gzip.spoilt_take m cut

end Pipeline

/-! A stemcell with nothing but an image -/

namespace Archive.Stemcell

def octal : (count n : Nat) → Bytes
  | 0, _ => []
  | count + 1, n => octal count (n / 8) ++ [UInt8.ofNat (48 + n % 8)]

def headerBlock (size : Nat) (sum : Bytes) : Bytes :=
  Text.Utf8.encode imageName ++ List.replicate 119 0 ++ octal 11 size ++ List.replicate 13 0 ++ sum ++
    48 :: List.replicate 355 0

def imageHeader (size : Nat) : Tar.Header :=
  ⟨headerBlock size (octal 6 (Tar.Header.sum ⟨headerBlock size (List.replicate 8 32)⟩) ++ [0, 32])⟩

@[mk_iff]
structure Sound (size : Nat) : Prop where
  whole : (imageHeader size).block.length = Tar.blockSize
  filled : ¬ (imageHeader size).block.all (· = 0)
  kind : (imageHeader size).kind = '0'
  path : (imageHeader size).path = Text.Utf8.encode imageName
  checked : (imageHeader size).check.toOption = some ()
  sized : (imageHeader size).size.toOption = some size
  small : Tar.blockSize + Tar.padded size < 2 ^ 64

instance (size : Nat) : Decidable (Sound size) :=
  decidable_of_iff _ (sound_iff size).symm

/-- The sizes that come up in what follows. -/
theorem sound_of_mem : ∀ size ∈ [21, 25, 26, 50, 65561], Sound size := by
  decide +kernel

theorem eq_ok_of_toOption {ε α : Type} {x : Except ε α} {a : α} (same : x.toOption = some a) : x = .ok a := by
  cases x with
  | error e => cases same
  | ok b => exact congrArg _ (Option.some.inj same)

variable {packed : Bytes}

def imageEntry (packed : Bytes) (sound : Sound packed.length) : Tar.Plain where
  header := imageHeader packed.length
  contents := packed
  whole := sound.whole
  filled := sound.filled
  checked := eq_ok_of_toOption sound.checked
  sized := eq_ok_of_toOption sound.sized
  own := by
    rw [sound.kind]
    decide

def stemcellOf (packed : Bytes) (sound : Sound packed.length) : Bytes :=
  (Member.plain (imageEntry packed sound).bytes).bytes

theorem listed_stemcellOf (sound : Sound packed.length) :
    listed (stemcellOf packed sound) = ⟨[(imageEntry packed sound).entry], none⟩ := by
  have begins : (Member.plain (imageEntry packed sound).bytes).Begins (stemcellOf packed sound) :=
    Member.begins_self Gzip.Head.short_plain
  have long : ([imageEntry packed sound].flatMap Tar.Plain.bytes ++ []).length < 2 ^ 64 := by
    rw [List.append_nil, List.flatMap_singleton, Tar.Plain.length_bytes]
    exact sound.small
  have only := Tar.listing_plain [imageEntry packed sound] (.inl rfl) long
  rw [List.flatMap_singleton, List.append_nil] at only
  rw [listed_of_begins begins]
  exact only

theorem packs_stemcellOf (sound : Sound packed.length) : Packs (stemcellOf packed sound) packed := by
  have file : (imageEntry packed sound).entry.isFile = true := by
    have kind : (imageEntry packed sound).entry.header.kind = '0' := sound.kind
    rw [Tar.Entry.isFile, kind]
    rfl
  have named : (imageEntry packed sound).entry.path = Text.Utf8.encode imageName := sound.path
  refine ⟨_, ⟨[], [], by rw [listed_stemcellOf]; rfl, nofun, file, ?_⟩, rfl⟩
  rw [named]
  decide +kernel

end Archive.Stemcell

/-- The stemcell is whatever file is read that has not just been written. An upload is carried out at once. -/
def Surroundings.shelving (stemcell : Bytes) : Surroundings := fun past e =>
  match e with
  | .readFile path =>
    match past.deeds.getLast? with
    | some ⟨.writeFile written bytes, .ok ()⟩ => .ok (if written = path then bytes else stemcell)
    | _ => .ok stemcell
  | .call (.submit _) => .ok (Task.new ⟨"t1"⟩ "CREATE_IMAGE" .queued)
  | .call (.poll id) => .ok ⟨id, "CREATE_IMAGE", .completed, ⟨"image-1", "image"⟩, [], none, none, none, none⟩
  | e => Surroundings.polling 0 ⟨"t1"⟩ (fun _ => .error (.transport none "no answer")) past e

theorem Surroundings.shelving_keepsFiles (stemcell : Bytes) : (shelving stemcell).KeepsFiles := by
  intro past before path bytes split
  have last : past.deeds.getLast? = some ⟨.writeFile path bytes, .ok ()⟩ := by
    rw [split]
    exact List.getLast?_concat
  rw [shelving, last]
  exact congrArg Except.ok (if_pos rfl)

namespace Pipeline

def leisurely : Settings := ⟨"p1", .blank, ⟨.ofMillis 100, 1, .ofMillis 250⟩⟩

def shelved (stemcell : Bytes) : Except Halt ImageId × History :=
  (createStemcell leisurely "stemcell.tgz").play (.shelving stemcell) []

theorem shelved_ok {stemcell image : Bytes}
    (unpacked : unpackedImage "stemcell.tgz" (.ok stemcell) = .ok image) :
    (shelved stemcell).1 = .ok ⟨"image-1"⟩ := by
  rw [shelved, createStemcell_eq, play_withScratch rfl]
  change (Pipeline.play (handOn _ _ _ (unpackedImage _ (.ok stemcell))) _ _).1 = _
  rw [unpacked]
  rfl

theorem shelved_read (stemcell : Bytes) :
    ∃ rest, (shelved stemcell).2.deeds = ⟨.freshName "stemcell", "stemcell"⟩ ::
      ⟨.makeScratch "stemcell", .ok "stemcell"⟩ :: ⟨.readFile "stemcell.tgz", .ok stemcell⟩ :: rest := by
  rw [shelved, createStemcell_eq, play_withScratch rfl]
  obtain ⟨more, grown⟩ := Program.exists_play_eq
    (handOn leisurely "stemcell.tgz" "stemcell"
      (unpackedImage "stemcell.tgz" (.ok stemcell))).run (.shelving stemcell)
      [⟨.freshName "stemcell", "stemcell"⟩, ⟨.makeScratch "stemcell", .ok "stemcell"⟩,
        ⟨.readFile "stemcell.tgz", .ok stemcell⟩]
  refine ⟨more.deeds ++ [⟨.discardScratch "stemcell", ()⟩], ?_⟩
  change History.deeds ((Program.play (handOn _ _ _ (unpackedImage _ (.ok stemcell))).run _ _).2 ++ _) = _
  rw [History.deeds_append]
  exact congrArg (fun h => History.deeds h ++ _) grown

variable {stemcell packed : Bytes}

theorem shelved_of_begins {m : Member} (packs : Stemcell.Packs stemcell packed) (begins : m.Begins packed) :
    (shelved stemcell).1 = .ok ⟨"image-1"⟩ ∧ (shelved stemcell).2.images = [m.contents] := by
  have ok : (shelved stemcell).1 = .ok ⟨"image-1"⟩ :=
    shelved_ok (by rw [unpackedImage, Stemcell.image?_of_begins packs begins])
  obtain ⟨rest, read⟩ := shelved_read stemcell
  obtain ⟨inner, handles, images⟩ := handles_of_read (Surroundings.shelving_keepsFiles stemcell) read
  have uploads := handles.of_begins packs begins
  have same : ((createStemcell _ _).play _ _).1 = _ := ok
  rw [same] at uploads
  exact ⟨ok, images.trans uploads.images_of_ok⟩

theorem shelved_of_spoilt (packs : Stemcell.Packs stemcell packed) (spoilt : Spoilt packed) :
    (∃ fault, (shelved stemcell).1 = .error (.failed (.io (.archive fault)))) ∧
      (shelved stemcell).2.images = [] := by
  obtain ⟨rest, read⟩ := shelved_read stemcell
  obtain ⟨inner, handles, images⟩ := handles_of_read (Surroundings.shelving_keepsFiles stemcell) read
  obtain ⟨rfl, failed⟩ := handles.of_spoilt packs spoilt
  exact ⟨failed, images⟩

theorem sound_plain : Stemcell.Sound (Member.plain [1, 2, 3]).bytes.length := by
  rw [Member.length_bytes_plain (by decide)]
  exact Stemcell.sound_of_mem _ (by decide)

theorem createStemcell_uploads_plain :
    let stemcell := Stemcell.stemcellOf (Member.plain [1, 2, 3]).bytes sound_plain
    (Surroundings.shelving stemcell).KeepsFiles ∧ (shelved stemcell).1 = .ok ⟨"image-1"⟩ ∧
      (shelved stemcell).2.images = [[1, 2, 3]] := by
  intro stemcell
  have packs : Stemcell.Packs stemcell (Member.plain [1, 2, 3]).bytes := Stemcell.packs_stemcellOf sound_plain
  obtain ⟨ok, -⟩ := shelved_of_begins packs (Member.begins_self Gzip.Head.short_plain)
  obtain ⟨rest, read⟩ := shelved_read stemcell
  obtain ⟨name, ⟨fault, failed, -⟩ | ⟨directory, found, inner, deeds, -, good⟩⟩ :=
    createStemcell_uploads leisurely "stemcell.tgz" (.shelving stemcell)
      (Surroundings.shelving_keepsFiles stemcell)
  · cases read.symm.trans failed
  · cases read.symm.trans deeds
    obtain ⟨whole, -⟩ := (good stemcell rfl).2 _ packs
    exact ⟨Surroundings.shelving_keepsFiles stemcell, ok, (whole _ Gzip.Head.short_plain rfl).2 _ ok⟩

theorem plain_of_mem {name text : Bytes} (plain : 0 ∉ name) (mem : text ∈ some name) : 0 ∉ text :=
  Option.some.inj mem ▸ plain

def named (name : Bytes) (plain : 0 ∉ name) (contents : Bytes) : Member where
  head := { Gzip.Head.plain with name := some name, name_plain := fun _ => plain_of_mem plain }
  data := Gzip.stored contents
  contents := contents
  deflated := Gzip.deflated_stored contents

theorem length_bytes_named {name : Bytes} (plain : 0 ∉ name) {contents : Bytes}
    (short : contents.length ≤ 65535) :
    (named name plain contents).bytes.length = name.length + contents.length + 24 := by
  have whole := Member.length_bytes_plain short
  rw [Member.length_bytes] at whole ⊢
  have head : (named name plain contents).head.bytes.length = 10 + (name.length + 1) := by
    simp [named, Gzip.Head.plain, Gzip.Head.bytes, Gzip.Head.unchecked, Gzip.Head.fixed, Gzip.Head.extraPart,
      Gzip.Head.textPart, Gzip.Head.checkPart]
    omega
  have plainHead : (Member.plain contents).head.bytes.length = 10 := rfl
  have data : (named name plain contents).data = (Member.plain contents).data := rfl
  rw [data]
  omega

def longNamed : Member :=
  named (List.replicate 65536 97) (fun zero => absurd (List.eq_of_mem_replicate zero) (by decide)) [7]

theorem sound_longNamed : Stemcell.Sound longNamed.bytes.length := by
  rw [longNamed, length_bytes_named _ (by decide), List.length_replicate]
  exact Stemcell.sound_of_mem _ (by decide)

theorem sound_followed : Stemcell.Sound ((Member.plain [7]).bytes ++ [0]).length := by
  rw [List.length_append, Member.length_bytes_plain (by decide)]
  exact Stemcell.sound_of_mem _ (by decide)

theorem not_members_followed (ms : List Member) :
    ms.flatMap Member.bytes ≠ (Member.plain [7]).bytes ++ [0] := by
  intro same
  have begins := Member.begins_plain [7] [0]
  cases ms with
  | nil => simp at same
  | cons m ms =>
    rw [List.flatMap_cons] at same
    have fine : ¬ Spoilt (m.bytes ++ ms.flatMap Member.bytes) := by
      rw [same]
      exact fun spoilt => Gzip.spoilt_iff.mp spoilt _ begins
    -- The first of them is the member in front, which leaves a single byte for all others.
    have whole := (same ▸ Member.begins_of_not_spoilt fine).bytes_unique begins
    rw [whole] at same
    have left := List.append_cancel_left same
    cases ms with
    | nil => cases left
    | cons m ms =>
      have long := congrArg List.length left
      rw [List.flatMap_cons, List.length_append, Member.length_bytes, List.length_singleton] at long
      omega

theorem deflated_reaching : Deflated [3, 2, 0] [0, 0, 0] := by
  obtain ⟨output, left⟩ : (inflate 0 [3, 2, 0]).output = [0, 0, 0] ∧
      (inflate 0 [3, 2, 0]).remainder.toOption = some [] := by
    decide +kernel
  rcases inflated : inflate 0 [3, 2, 0] with ⟨held, remainder⟩
  rw [inflated] at output left
  obtain rfl : held = _ := output
  obtain rfl : remainder = _ := Stemcell.eq_ok_of_toOption left
  obtain ⟨data, whole, deflated⟩ := inflate_eq_ok_iff.mp inflated
  rw [List.append_nil] at whole
  exact whole ▸ deflated

/-- The stream copies three bytes from one byte before its start. -/
def reaching : Member :=
  ⟨.plain, [3, 2, 0], [0, 0, 0], deflated_reaching⟩

theorem sound_reaching : Stemcell.Sound reaching.bytes.length := by
  rw [Member.length_bytes]
  exact Stemcell.sound_of_mem _ (by decide)

/-- A reader turns down a whole member if its name is too long. On the other hand, it takes no offence at
bytes that belong to no member, nor at a stream that copies what it has not written. -/
theorem shelved_unlike_gzip :
    (∃ stemcell, Stemcell.Packs stemcell longNamed.bytes ∧ (shelved stemcell).2.images = [] ∧
      ∃ fault, (shelved stemcell).1 = .error (.failed (.io (.archive fault)))) ∧
    (∃ stemcell, Stemcell.Packs stemcell ((Member.plain [7]).bytes ++ [0]) ∧
      (∀ ms : List Member, ms.flatMap Member.bytes ≠ (Member.plain [7]).bytes ++ [0]) ∧
      (shelved stemcell).1 = .ok ⟨"image-1"⟩ ∧ (shelved stemcell).2.images = [[7]]) ∧
    ∃ stemcell, Stemcell.Packs stemcell reaching.bytes ∧
      (shelved stemcell).1 = .ok ⟨"image-1"⟩ ∧ (shelved stemcell).2.images = [[0, 0, 0]] := by
  have long : Spoilt longNamed.bytes := by
    have spoilt := Gzip.spoilt_of_not_short (m := longNamed) (fun short => absurd (short.name _ rfl) ?_) []
    · rwa [List.append_nil] at spoilt
    · rw [List.length_replicate]
      decide
  obtain ⟨failed, nothing⟩ := shelved_of_spoilt (Stemcell.packs_stemcellOf sound_longNamed) long
  exact ⟨⟨_, Stemcell.packs_stemcellOf sound_longNamed, nothing, failed⟩,
    ⟨_, Stemcell.packs_stemcellOf sound_followed, not_members_followed,
      shelved_of_begins (Stemcell.packs_stemcellOf sound_followed) (Member.begins_plain [7] [0])⟩,
    ⟨_, Stemcell.packs_stemcellOf sound_reaching,
      shelved_of_begins (Stemcell.packs_stemcellOf sound_reaching)
        (Member.begins_self Gzip.Head.short_plain)⟩⟩

end Pipeline
end CloudProvider
