/-
Where `StageSftpObject` puts the files of an SFTP server.

A key is made of the staging prefix, the id of the connector and the name that
the server gives, and cleaned before its location is checked. No name leaves the
prefix of the organization, but a name may lead out of the folder of its
connector, and two names may lead to one place.
-/

import MigrationPlatform.Connectors.ConnectorLocations
import MigrationPlatform.Foundation.Decimals

namespace MigrationPlatform.Connectors

open SlashPaths
open Batch (trimSlashes stagingObjectKey head_trimSlashes)
open Watch (NumberReader)

structure RemoteFile where
  config : Option Data
  connectorID : Int
  remoteKey : String

def RemoteFile.identity (file : RemoteFile) : Int × String := (file.connectorID, file.remoteKey)

inductive StageError
  | config (message : String)
  | refused (refusal : SourceRefusal)

section Staging

variable (reader : NumberReader) (org : Int) (allowed : List String)

def loadSftpConnector (config : Option Data) : Except StageError Location :=
  match sftpLocation reader org config with
  | .error message => .error (.config message)
  | .ok location =>
      match checkOrgLocation allowed location with
      | some refusal => .error (.refused refusal)
      | none => .ok location

def stagedObject (file : RemoteFile) : Except StageError Location :=
  match loadSftpConnector reader org allowed file.config with
  | .error problem => .error problem
  | .ok location =>
      let staged : Location :=
        { location with key := stagingObjectKey location.key file.connectorID file.remoteKey }
      match checkOrgLocation allowed staged with
      | some refusal => .error (.refused refusal)
      | none => .ok staged

end Staging

/-- The segments as they are written: those of the staging prefix, the id of the
connector, and those of the name with slashes for backslashes. -/
def writtenPath (stagingPrefix : String) (connectorID : Int) (remoteKey : String) :
    List (List Char) :=
  stagingPrefix.toList.splitOn '/' ++ (toString connectorID).toList ::
    (remoteKey.toList.map (fun c => if c = '\\' then '/' else c)).splitOn '/'

/-- Under the prefix of the organization, with no segment that leads out of it. -/
def StaysWithin (org : Int) (key : String) : Prop :=
  (orgObjectPrefix org).toList <+: key.toList ∧ ['.', '.'] ∉ pathSegments key.toList

theorem samePath_leading (text : List Char) :
    SamePath (text.splitOn '/') ((text.dropWhile (fun c => c == '/')).splitOn '/') := by
  induction text with
  | nil => exact .refl _
  | cons c rest ih =>
      by_cases slash : c = '/'
      · subst slash
        have splits : ('/' :: rest).splitOn '/' = [] :: rest.splitOn '/' :=
          List.splitOn_append_cons_self [] rest
        rw [splits, List.dropWhile_cons_of_pos (by decide)]
        exact .trans _ _ _ (.rel _ _ (.empty [] _)) ih
      · have other : ¬(c == '/') = true := fun same => slash (eq_of_beq same)
        rw [List.dropWhile_cons, if_neg other]
        exact .refl _

private theorem samePath_trailing (text : List Char) :
    SamePath (text.splitOn '/') ((text.reverse.dropWhile (fun c => c == '/')).reverse.splitOn '/') := by
  induction text using List.reverseRecOn with
  | nil => exact .refl _
  | append_singleton text c ih =>
      rw [List.reverse_append, List.reverse_singleton, List.singleton_append]
      by_cases slash : c = '/'
      · subst slash
        have splits : (text ++ ['/']).splitOn '/' = text.splitOn '/' ++ [[]] := by
          rw [List.splitOn_append_cons_self, List.splitOn_nil]
        have step := Shorter.empty (text.splitOn '/') []
        rw [List.append_nil] at step
        rw [splits, List.dropWhile_cons_of_pos (by decide)]
        exact .trans _ _ _ (.rel _ _ step) ih
      · have other : ¬(c == '/') = true := fun same => slash (eq_of_beq same)
        rw [List.dropWhile_cons, if_neg other, List.reverse_cons, List.reverse_reverse]
        exact .refl _

private theorem samePath_trimSlashes (text : List Char) :
    SamePath (text.splitOn '/') ((trimSlashes text).splitOn '/') := by
  unfold trimSlashes
  exact .trans _ _ _ (samePath_leading text) (samePath_trailing _)

theorem splitOn_cons_part (part : List Char) (parts : List (List Char)) (nonempty : parts ≠ []) :
    (['/'].intercalate (part :: parts)).splitOn '/' =
      part.splitOn '/' ++ (['/'].intercalate parts).splitOn '/' := by
  cases parts with
  | nil => exact absurd rfl nonempty
  | cons next others =>
      rw [List.intercalate_cons_cons, List.append_assoc]
      exact List.splitOn_append_cons_self part _

theorem toString_noSlash (number : Int) : '/' ∉ (toString number).toList :=
  Decimals.not_mem_toString (by decide) (by decide) number

theorem toString_ne_nil (number : Int) : (toString number).toList ≠ [] := by
  cases number with
  | ofNat number =>
      change (toString number).toList ≠ []
      rw [Decimals.toList_toString]
      exact Nat.toDigits_ne_nil
  | negSucc number =>
      rw [Decimals.toList_toString_neg]
      exact List.cons_ne_nil _ _

private theorem samePath_written (root id name : List Char) (noSlash : '/' ∉ id) :
    SamePath (root.splitOn '/' ++ id :: name.splitOn '/')
      ((['/'].intercalate
        ([root, id] ++ [name].filter (fun part => !part.isEmpty))).splitOn '/') := by
  have alone : id.splitOn '/' = [id] := List.splitOn_eq_singleton noSlash
  cases name with
  | nil =>
      have step := Shorter.empty (root.splitOn '/' ++ [id]) []
      simp only [List.append_assoc, List.singleton_append, List.append_nil] at step
      simp only [List.filter_cons, List.isEmpty_nil, Bool.not_true, Bool.false_eq_true, if_false,
        List.filter_nil, List.append_nil, List.splitOn_nil]
      rw [splitOn_cons_part root [id] (List.cons_ne_nil _ _), List.intercalate_singleton, alone]
      exact .rel _ _ step
  | cons c rest =>
      simp only [List.filter_cons, List.isEmpty_cons, Bool.not_false, if_true, List.filter_nil,
        List.cons_append, List.nil_append]
      rw [splitOn_cons_part root [id, c :: rest] (List.cons_ne_nil _ _),
        splitOn_cons_part id [c :: rest] (List.cons_ne_nil _ _), List.intercalate_singleton, alone]
      exact .refl _

theorem join_of_relative {root id : List Char} (rooted : root ≠ []) (head : root.head? ≠ some '/')
    (present : id ≠ []) (name : List Char) :
    join [root, id, name] =
      let text := ['/'].intercalate (cleanSegments false []
        ((['/'].intercalate ([root, id] ++ [name].filter (fun part => !part.isEmpty))).splitOn '/'))
      if text = [] then ['.'] else text := by
  have parts : [root, id, name].filter (fun part => !part.isEmpty) =
      root :: id :: [name].filter (fun part => !part.isEmpty) := by
    have first : (!root.isEmpty) = true := by
      rw [Bool.not_eq_true', List.isEmpty_eq_false_iff]
      exact rooted
    have second : (!id.isEmpty) = true := by
      rw [Bool.not_eq_true', List.isEmpty_eq_false_iff]
      exact present
    simp only [List.filter_cons, first, second, if_true]
  have relative : ((['/'].intercalate
      (root :: id :: [name].filter (fun part => !part.isEmpty))).head? == some '/') = false := by
    rw [beq_eq_false_iff_ne, List.intercalate_cons_cons]
    cases root with
    | nil => exact absurd rfl rooted
    | cons c rest => exact head
  unfold join
  rw [parts]
  dsimp only
  unfold clean
  dsimp only
  rw [relative]
  rfl

private theorem stagingObjectKey_eq {stagingPrefix : String}
    (rooted : trimSlashes stagingPrefix.toList ≠ [])
    (connectorID : Int) (remoteKey : String) :
    (stagingObjectKey stagingPrefix connectorID remoteKey).toList =
      let text := ['/'].intercalate
        (cleanSegments false [] (writtenPath stagingPrefix connectorID remoteKey))
      if text = [] then ['.'] else text := by
  have root := samePath_trimSlashes stagingPrefix.toList
  have name := samePath_leading (remoteKey.toList.map (fun c => if c = '\\' then '/' else c))
  have whole : SamePath (writtenPath stagingPrefix connectorID remoteKey)
      ((trimSlashes stagingPrefix.toList).splitOn '/' ++ (toString connectorID).toList ::
        ((remoteKey.toList.map (fun c => if c = '\\' then '/' else c)).dropWhile
          (fun c => c == '/')).splitOn '/') := by
    have first := root.within [] ((toString connectorID).toList ::
      (remoteKey.toList.map (fun c => if c = '\\' then '/' else c)).splitOn '/')
    have second := name.within
      ((trimSlashes stagingPrefix.toList).splitOn '/' ++ [(toString connectorID).toList]) []
    simp only [List.append_assoc, List.singleton_append, List.nil_append, List.append_nil] at first second
    exact .trans _ _ _ first second
  have cleaned := (cleanSegments_eq_iff _ _).mpr (.trans _ _ _ whole
    (samePath_written _ _ _ (toString_noSlash connectorID)))
  unfold stagingObjectKey
  dsimp only
  rw [String.toList_ofList, if_neg rooted,
    join_of_relative rooted (head_trimSlashes _) (toString_ne_nil connectorID), cleaned]

theorem Fits.trimmed {org : Int} {location : List Char} (fits : Fits org location) :
    trimSlashes location ≠ [] := by
  intro empty
  obtain ⟨slashes, rest, whole, _, _⟩ := fits.starts_with
  have member : 'o' ∈ location := by
    rw [whole]
    exact List.mem_append_right _ List.mem_cons_self
  unfold trimSlashes at empty
  rw [List.reverse_eq_nil_iff, List.dropWhile_eq_nil_iff] at empty
  rw [← List.takeWhile_append_dropWhile (p := fun c => c == '/') (l := location)] at member
  rcases List.mem_append.mp member with front | behind
  · exact absurd (List.mem_takeWhile_imp front) (by decide)
  · exact absurd (empty 'o' (List.mem_reverse.mpr behind)) (by decide)

private theorem mem_written_noSlash {stagingPrefix : String} {connectorID : Int}
    {remoteKey : String} :
    ∀ segment ∈ cleanSegments false [] (writtenPath stagingPrefix connectorID remoteKey),
      '/' ∉ segment := by
  intro segment member
  rcases mem_cleanSegments false _ _ segment member with absent | ⟨written, _⟩
  · cases absent
  · unfold writtenPath at written
    rcases List.mem_append.mp written with root | later
    · exact Splitting.not_mem_of_mem_splitOn _ segment root
    · rcases List.mem_cons.mp later with id | name
      · rw [id]
        exact toString_noSlash connectorID
      · exact Splitting.not_mem_of_mem_splitOn _ segment name

theorem accepted_key_segments {org : Int} {stagingPrefix remoteKey : String} {connectorID : Int}
    (rooted : trimSlashes stagingPrefix.toList ≠ [])
    (fits : Fits org (stagingObjectKey stagingPrefix connectorID remoteKey).toList) :
    (stagingObjectKey stagingPrefix connectorID remoteKey).toList.splitOn '/' =
      cleanSegments false [] (writtenPath stagingPrefix connectorID remoteKey) := by
  have key := stagingObjectKey_eq rooted connectorID remoteKey
  dsimp only at key
  split at key
  · -- the key would be a dot
    obtain ⟨slashes, rest, whole, _, _⟩ := fits.starts_with
    have member : 'o' ∈ (stagingObjectKey stagingPrefix connectorID remoteKey).toList := by
      rw [whole]
      exact List.mem_append_right _ List.mem_cons_self
    rw [key] at member
    exact absurd member (by decide)
  · rename_i some_text
    rw [key]
    apply List.splitOn_intercalate '/' mem_written_noSlash
    intro none
    rw [none] at some_text
    exact some_text rfl

theorem accepted_key_stays {org : Int} {stagingPrefix remoteKey : String} {connectorID : Int}
    (rooted : trimSlashes stagingPrefix.toList ≠ [])
    (fits : Fits org (stagingObjectKey stagingPrefix connectorID remoteKey).toList) :
    StaysWithin org (stagingObjectKey stagingPrefix connectorID remoteKey) := by
  have segments := accepted_key_segments rooted fits
  have unrooted : (stagingObjectKey stagingPrefix connectorID remoteKey).toList.head? ≠ some '/' := by
    intro head
    cases shape : (stagingObjectKey stagingPrefix connectorID remoteKey).toList with
    | nil =>
        rw [shape] at head
        cases head
    | cons c rest =>
        rw [shape] at head segments
        cases head
        have splits : ('/' :: rest).splitOn '/' = [] :: rest.splitOn '/' :=
          List.splitOn_append_cons_self [] rest
        rw [splits] at segments
        have empty : [] ∈ cleanSegments false [] (writtenPath stagingPrefix connectorID remoteKey) := by
          rw [← segments]
          exact List.mem_cons_self
        rcases mem_cleanSegments false _ _ [] empty with absent | ⟨_, named⟩
        · cases absent
        · exact named rfl
  have whole : withoutSlashes (stagingObjectKey stagingPrefix connectorID remoteKey).toList =
      (stagingObjectKey stagingPrefix connectorID remoteKey).toList := by
    cases shape : (stagingObjectKey stagingPrefix connectorID remoteKey).toList with
    | nil => rfl
    | cons c rest =>
        have other : ¬decide (c = '/') = true := by
          intro slash
          rw [shape, of_decide_eq_true slash] at unrooted
          exact unrooted rfl
        change (c :: rest).dropWhile _ = _
        rw [List.dropWhile_cons, if_neg other]
  have starts := fits.starts
  have stays := fits.stays
  rw [whole] at starts stays
  exact ⟨starts, stays⟩

/-! ### Two files -/

section Staged

variable {reader : NumberReader} {org : Int} {allowed : List String}

private theorem sftpLocation_org {config : Option Data} {location : Location}
    (derived : sftpLocation reader org config = .ok location) : location.orgID = org := by
  unfold sftpLocation at derived
  split at derived
  · cases derived
  · cases derived
    rfl

private theorem loadSftpConnector_ok {config : Option Data} {location : Location}
    (loaded : loadSftpConnector reader org allowed config = .ok location) :
    location.orgID = org ∧ Fits org location.key.toList := by
  unfold loadSftpConnector at loaded
  split at loaded
  · cases loaded
  · rename_i found derived
    split at loaded
    · cases loaded
    · rename_i accepted
      cases loaded
      have own := sftpLocation_org derived
      have fits := (checkOrgLocation_none_iff.mp accepted).2.2
      rw [own] at fits
      exact ⟨own, fits⟩

theorem stagedObject_ok {file : RemoteFile} {staged : Location}
    (written : stagedObject reader org allowed file = .ok staged) :
    ∃ location, loadSftpConnector reader org allowed file.config = .ok location ∧
      staged.bucket = location.bucket ∧
      staged.key = stagingObjectKey location.key file.connectorID file.remoteKey ∧
      trimSlashes location.key.toList ≠ [] ∧ Fits org staged.key.toList := by
  unfold stagedObject at written
  split at written
  · cases written
  · rename_i location loaded
    dsimp only at written
    split at written
    · cases written
    · rename_i accepted
      cases written
      obtain ⟨own, fits⟩ := loadSftpConnector_ok loaded
      have within := (checkOrgLocation_none_iff.mp accepted).2.2
      dsimp only at within
      rw [own] at within
      exact ⟨location, loaded, rfl, rfl, fits.trimmed, within⟩

/-- The folders and names of two files, with the buckets of their connectors,
lead to one place. -/
def SamePlace (reader : NumberReader) (org : Int) (allowed : List String)
    (first second : RemoteFile) : Prop :=
  ∃ one two, loadSftpConnector reader org allowed first.config = .ok one ∧
    loadSftpConnector reader org allowed second.config = .ok two ∧ one.bucket = two.bucket ∧
    SamePath (writtenPath one.key first.connectorID first.remoteKey)
      (writtenPath two.key second.connectorID second.remoteKey)

/-- Staged files stay with their organization. Of two files, one replaces the
other exactly where their names lead to the same place. -/
theorem staged_apart_iff {first second : RemoteFile} {one two : Location}
    (firstStaged : stagedObject reader org allowed first = .ok one)
    (secondStaged : stagedObject reader org allowed second = .ok two) :
    StaysWithin org one.key ∧ StaysWithin org two.key ∧
      ((first.identity ≠ second.identity → (one.bucket, one.key) ≠ (two.bucket, two.key)) ↔
        (first.identity ≠ second.identity → ¬SamePlace reader org allowed first second)) := by
  obtain ⟨place, loaded, bucket, key, rooted, fits⟩ := stagedObject_ok firstStaged
  obtain ⟨other, otherLoaded, otherBucket, otherKey, otherRooted, otherFits⟩ :=
    stagedObject_ok secondStaged
  have same : (one.bucket, one.key) = (two.bucket, two.key) ↔
      SamePlace reader org allowed first second := by
    have keys : one.key = two.key ↔
        SamePath (writtenPath place.key first.connectorID first.remoteKey)
          (writtenPath other.key second.connectorID second.remoteKey) := by
      rw [key] at fits
      rw [otherKey] at otherFits
      rw [← cleanSegments_eq_iff, ← accepted_key_segments rooted fits,
        ← accepted_key_segments otherRooted otherFits, key, otherKey]
      constructor
      · intro equal
        rw [equal]
      · intro segments
        have texts := congrArg (List.intercalate ['/']) segments
        rw [List.intercalate_splitOn, List.intercalate_splitOn] at texts
        exact String.toList_inj.mp texts
    rw [Prod.mk.injEq, keys, bucket, otherBucket]
    constructor
    · rintro ⟨buckets, paths⟩
      exact ⟨place, other, loaded, otherLoaded, buckets, paths⟩
    · rintro ⟨left, right, leftLoaded, rightLoaded, buckets, paths⟩
      rw [loaded] at leftLoaded
      rw [otherLoaded] at rightLoaded
      cases leftLoaded
      cases rightLoaded
      exact ⟨buckets, paths⟩
  refine ⟨?_, ?_, ?_⟩
  · rw [key] at fits ⊢
    exact accepted_key_stays rooted fits
  · rw [otherKey] at otherFits ⊢
    exact accepted_key_stays otherRooted otherFits
  · exact imp_congr_right (fun _apart => not_congr same)

end Staged

/-- A relative path as a server would normally give it. -/
structure PlainName (remoteKey : String) : Prop where
  noBackslash : '\\' ∉ remoteKey.toList
  steps : ∀ segment ∈ remoteKey.toList.splitOn '/', IsStep segment

private theorem toString_isStep (number : Int) : IsStep (toString number).toList := by
  have noDot : '.' ∉ (toString number).toList :=
    Decimals.not_mem_toString (by decide) (by decide) number
  refine ⟨toString_ne_nil number, ?_, ?_⟩
  · intro same
    rw [same] at noDot
    exact noDot List.mem_cons_self
  · intro same
    rw [same] at noDot
    exact noDot List.mem_cons_self

private theorem PlainName.map_eq {remoteKey : String} (plain : PlainName remoteKey) :
    remoteKey.toList.map (fun c => if c = '\\' then '/' else c) = remoteKey.toList := by
  have same : ∀ c ∈ remoteKey.toList, (if c = '\\' then '/' else c) = id c := by
    intro c member
    rw [if_neg]
    · rfl
    · intro backslash
      exact plain.noBackslash (backslash ▸ member)
  rw [List.map_congr_left same, List.map_id]

theorem cleaned_plain {remoteKey : String} (plain : PlainName remoteKey) (stagingPrefix : String)
    (connectorID : Int) :
    cleanSegments false [] (writtenPath stagingPrefix connectorID remoteKey) =
      cleanSegments false [] (stagingPrefix.toList.splitOn '/') ++
        (toString connectorID).toList :: remoteKey.toList.splitOn '/' := by
  have steps : ∀ segment ∈ (toString connectorID).toList :: remoteKey.toList.splitOn '/',
      IsStep segment := List.forall_mem_cons.mpr ⟨toString_isStep connectorID, plain.steps⟩
  unfold writtenPath
  rw [plain.map_eq, cleanSegments_append, cleanSegments_steps steps, List.reverse_reverse]

theorem plain_names_apart {stagingPrefix first second : String} {one two : Int}
    (firstPlain : PlainName first) (secondPlain : PlainName second)
    (same : SamePath (writtenPath stagingPrefix one first) (writtenPath stagingPrefix two second)) :
    (one, first) = (two, second) := by
  have cleaned := (cleanSegments_eq_iff _ _).mpr same
  rw [cleaned_plain firstPlain, cleaned_plain secondPlain] at cleaned
  obtain ⟨ids, names⟩ := List.cons.inj (List.append_cancel_left cleaned)
  have texts := congrArg (List.intercalate ['/']) names
  rw [List.intercalate_splitOn, List.intercalate_splitOn] at texts
  have numbers : (toString one).toList ++ ['/'] = (toString two).toList ++ ['/'] := by rw [ids]
  rw [String.toList_inj.mp texts, (Decimals.toString_inj_append (by decide) numbers).1]

def defaultSftp : Option Data := some [("host", .text "h"), ("username", .text "u")]

def plainFile : RemoteFile := { config := defaultSftp, connectorID := 1, remoteKey := "a.csv" }

def detour : RemoteFile := { config := defaultSftp, connectorID := 1, remoteKey := "in/../a.csv" }

def neighbour : RemoteFile := { config := defaultSftp, connectorID := 2, remoteKey := "../1/a.csv" }

def stagedPlainFile : Location :=
  { orgID := 7, bucket := "migration", key := "orgs/7/sftp-landing/1/a.csv" }

theorem staging_overwrites :
    stagedObject noNumbers 7 ["migration"] plainFile = .ok stagedPlainFile ∧
      stagedObject noNumbers 7 ["migration"] detour = .ok stagedPlainFile ∧
      stagedObject noNumbers 7 ["migration"] neighbour = .ok stagedPlainFile ∧
      plainFile.identity ≠ detour.identity ∧ plainFile.identity ≠ neighbour.identity :=
  ⟨rfl, rfl, rfl, by decide, by decide⟩

def secondFile : RemoteFile := { config := defaultSftp, connectorID := 1, remoteKey := "in/a.csv" }

def stagedSecondFile : Location :=
  { orgID := 7, bucket := "migration", key := "orgs/7/sftp-landing/1/in/a.csv" }

theorem plain_files_apart : StaysWithin 7 stagedPlainFile.key ∧
    (plainFile.identity ≠ secondFile.identity → stagedPlainFile.key ≠ stagedSecondFile.key) := by
  have firstPlain : PlainName "a.csv" := ⟨by decide, by decide⟩
  have secondPlain : PlainName "in/a.csv" := ⟨by decide, by decide⟩
  have one : stagedObject noNumbers 7 ["migration"] plainFile = .ok stagedPlainFile := rfl
  have two : stagedObject noNumbers 7 ["migration"] secondFile = .ok stagedSecondFile := rfl
  obtain ⟨within, _, apart⟩ := staged_apart_iff one two
  refine ⟨within, ?_⟩
  intro different keys
  apply apart.mpr _ different
  · rw [keys]
    rfl
  · rintro _ ⟨left, right, leftLoaded, rightLoaded, _, same⟩
    have sameConfig : plainFile.config = secondFile.config := rfl
    rw [sameConfig, rightLoaded] at leftLoaded
    cases leftLoaded
    exact different (plain_names_apart firstPlain secondPlain same)

end MigrationPlatform.Connectors
