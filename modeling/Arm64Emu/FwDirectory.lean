import Arm64Emu.BigEndian
import Arm64Emu.FwStream

/-! The file directory of fw_cfg. Files are added under the keys from `0x20` on, the items
of a kernel under the fixed keys below; the directory is rebuilt with every file. A guest
that parses it finds the files and reads each through the data port. -/
namespace Arm64Emu

structure DirFile where
  size : ℕ
  select : U16
  name : List U8
  deriving DecidableEq

/-- Sixty-four bytes: the size, the key and two reserved bytes, big endian, and the name,
which ends at a zero byte. -/
def DirFile.parse (bytes : List U8) : DirFile where
  size := (beWord (bytes.take 4)).toNat
  select := (beWord ((bytes.drop 4).take 2)).setWidth 16
  name := ((bytes.drop 8).take 56).takeWhile (· ≠ 0)

def parseEntries : ℕ → List U8 → List DirFile
  | 0, _ => []
  | n + 1, bytes => .parse (bytes.take 64) :: parseEntries n (bytes.drop 64)

/-- The directory: the number of its entries, big endian, and the entries. -/
def parseDirectory (bytes : List U8) : Option (List DirFile) :=
  let n := (beWord (bytes.take 4)).toNat
  if bytes.length = 4 + 64 * n then some (parseEntries n (bytes.drop 4)) else none

/-- The calls that fill the table before the machine starts. -/
inductive FwCall
  | file (name data : List U8)
  | kernel (kernel initrd : List U8) (cmdline : Option (List U8))

namespace FwCall

def apply (f : FwCfg) : FwCall → FwCfg
  | file name data => f.addFile name data
  | kernel k i c => f.setLegacyKernel k i c

def run (f : FwCfg) (calls : List FwCall) : FwCfg := calls.foldl apply f

/-- A name is a C string of at most 55 bytes, and a length has 32 bits. -/
def Valid : FwCall → Prop
  | file name data => name.length ≤ 55 ∧ 0 ∉ name ∧ data.length < 2 ^ 32
  | kernel _ _ _ => True

def file? : FwCall → Option (List U8 × List U8)
  | file name data => some (name, data)
  | kernel _ _ _ => none

def files (calls : List FwCall) : List (List U8 × List U8) := calls.filterMap file?

/-- The keys that are not those of files: those of `fwcfg_create`, and those of a kernel. -/
def fixedKeys : List U16 := [0x0000, 0x0001, 0x0005, 0x0019]

def kernelKeys : List U16 := [0x0008, 0x0011, 0x000b, 0x0012, 0x0014, 0x0015, 0x0017]

def lowKeys (calls : List FwCall) : List U16 :=
  if calls.all (·.file?.isSome) then fixedKeys else fixedKeys ++ kernelKeys

/-- The items of the calls and of `fwcfg_create` fit the table. -/
def Fits (calls : List FwCall) : Prop := (lowKeys calls).length + (files calls).length ≤ 96

end FwCall

namespace FwCfg

section Table
variable {f : FwCfg} {key : U16}

lemma setItem_of_find_none (data : List U8) (name : Option (List U8)) (h : f.find key = none)
    (hroom : f.items.length < 96) :
    (f.setItem key data name).items = f.items ++ [⟨key, data, (name.getD []).take 55, name.isSome⟩] := by
  rw [setItem, h]
  exact congrArg FwCfg.items (if_neg (by omega))

lemma setItem_of_find_some (data : List U8) {it : FwItem} (h : f.find key = some it) :
    (f.setItem key data none).items =
      f.items.map fun old => if old.key = key then ⟨key, data, old.name, false⟩ else old := by
  rw [setItem, h]
  rfl

lemma nextFileKey_setItem (data : List U8) (name : Option (List U8)) :
    (f.setItem key data name).nextFileKey = f.nextFileKey := by
  unfold setItem
  split
  · rfl
  · split <;> rfl

lemma find_of_mem (hnodup : (f.items.map (·.key)).Nodup) {it : FwItem} (hit : it ∈ f.items) : f.find it.key = some it := by
  have key_injOn : ∀ x ∈ f.items, x.key = it.key → x = it := fun x hx h => List.inj_on_of_nodup_map hnodup hx hit h
  unfold find
  cases hfind : f.items.find? fun x => x.key = it.key with
  | none => exact absurd (List.find?_eq_none.1 hfind it hit) (by simp)
  | some x =>
    have hx : x.key = it.key := by simpa using List.find?_some hfind
    rw [key_injOn x (List.mem_of_find?_eq_some hfind) hx]

lemma find_eq_none_iff : f.find key = none ↔ key ∉ f.items.map (·.key) := by
  simp [find]

end Table

def fileKey (i : ℕ) : U16 := BitVec.ofNat 16 (0x20 + i)

def fileItems (files : List (List U8 × List U8)) : List FwItem :=
  files.zipIdx.map fun (x, i) => ⟨fileKey i, x.2, x.1, true⟩

lemma length_fileItems (files : List (List U8 × List U8)) : (fileItems files).length = files.length := by
  simp [fileItems]

def directoryBytes (files : List (List U8 × List U8)) : List U8 :=
  be32 (BitVec.ofNat 32 files.length) ++ ((fileItems files).map dirEntry).flatten

/-- The table holds the files in order under the keys from `0x20` on, and else only items
under the keys `low`. -/
structure Table (f : FwCfg) (files : List (List U8 × List U8)) (low : List U16) : Prop where
  next : f.nextFileKey = fileKey files.length
  stored : f.items.filter (·.isFile) = fileItems files
  nodup : (f.items.map (·.key)).Nodup
  low : ∀ it ∈ f.items, it.isFile = false → it.key ∈ low

namespace Table
variable {f : FwCfg} {files : List (List U8 × List U8)} {low : List U16} {key : U16}

lemma mono (h : f.Table files low) {low' : List U16} (hlow : low ⊆ low') : f.Table files low' :=
  { h with low := fun it hit hfile => hlow (h.low it hit hfile) }

lemma length_items (h : f.Table files low) :
    f.items.length = files.length + (f.items.filter (!·.isFile)).length := by
  have hfiles : (f.items.filter (·.isFile)).length = files.length := by rw [h.stored, length_fileItems]
  rw [← hfiles, ← List.length_eq_length_filter_add]

lemma lowItems_sublist (f : FwCfg) : ((f.items.filter (!·.isFile)).map (·.key)).Sublist (f.items.map (·.key)) :=
  List.filter_sublist.map _

lemma lowItems_subset (h : f.Table files low) : (f.items.filter (!·.isFile)).map (·.key) ⊆ low := by
  intro k hk
  obtain ⟨it, hit, rfl⟩ := List.mem_map.1 hk
  obtain ⟨hmem, hfile⟩ := List.mem_filter.1 hit
  exact h.low it hmem (by simpa using hfile)

lemma length_le (h : f.Table files low) : f.items.length ≤ files.length + low.length := by
  have hlen := (List.subperm_of_subset (h.nodup.sublist (lowItems_sublist f)) h.lowItems_subset).length_le
  rw [List.length_map] at hlen
  rw [h.length_items]
  omega

lemma room (h : f.Table files low) (hfits : low.length + files.length ≤ 96) (hkey : key ∈ low)
    (hnew : key ∉ f.items.map (·.key)) : f.items.length < 96 := by
  have hnd : (key :: (f.items.filter (!·.isFile)).map (·.key)).Nodup :=
    List.nodup_cons.2 ⟨fun hk => hnew ((lowItems_sublist f).subset hk), h.nodup.sublist (lowItems_sublist f)⟩
  have hlen := (List.subperm_of_subset hnd (List.cons_subset.2 ⟨hkey, h.lowItems_subset⟩)).length_le
  rw [h.length_items]
  simp only [List.length_cons, List.length_map] at hlen
  omega

lemma mem_fileItems {it : FwItem} (hit : it ∈ fileItems files) :
    ∃ i, ∃ x ∈ files[i]?, it = ⟨fileKey i, x.2, x.1, true⟩ := by
  obtain ⟨⟨x, i⟩, hx, rfl⟩ := List.mem_map.1 hit
  exact ⟨i, x, List.mk_mem_zipIdx_iff_getElem?.1 hx, rfl⟩

lemma toNat_fileKey {i : ℕ} (hi : i < 96) : (fileKey i).toNat = 0x20 + i := by
  rw [fileKey, BitVec.toNat_ofNat, Nat.mod_eq_of_lt (by omega)]

lemma exists_fileKey (h : f.Table files low) {it : FwItem} (hit : it ∈ f.items)
    (hfile : it.isFile = true) : ∃ i < files.length, it.key = fileKey i := by
  have hmem : it ∈ fileItems files := h.stored ▸ List.mem_filter.2 ⟨hit, hfile⟩
  obtain ⟨i, x, hx, rfl⟩ := mem_fileItems hmem
  exact ⟨i, (List.getElem?_eq_some_iff.1 hx).1, rfl⟩

lemma setItem_low (h : f.Table files low) (data : List U8) (hfits : low.length + files.length ≤ 96) (hkey : key ∈ low)
    (hsmall : key.toNat < 0x20) :
    (f.setItem key data none).Table files low ∧ ((f.setItem key data none).find key).map (·.data) = some data ∧
      ∀ key' ≠ key, (f.setItem key data none).find key' = f.find key' := by
  have hnotFile : ∀ it ∈ f.items, it.isFile = true → it.key ≠ key := by
    rintro it hit hfile rfl
    obtain ⟨i, hi, hk⟩ := h.exists_fileKey hit hfile
    have := toNat_fileKey (i := i) (by omega)
    rw [← hk] at this
    omega
  cases hfind : f.find key with
  | none =>
    have hnew := find_eq_none_iff.1 hfind
    have hitems := setItem_of_find_none data none hfind (h.room hfits hkey hnew)
    refine ⟨⟨(nextFileKey_setItem data none).trans h.next, ?_, ?_, ?_⟩, ?_, ?_⟩
    · rw [hitems, List.filter_append, h.stored]
      simp
    · rw [hitems, List.map_append, List.nodup_append]
      refine ⟨h.nodup, by simp, fun a ha b hb => ?_⟩
      rintro rfl
      rw [List.mem_singleton.1 hb] at ha
      exact hnew ha
    · rw [hitems]
      intro it hit hfile
      rcases List.mem_append.1 hit with hold | hnew'
      · exact h.low it hold hfile
      · rw [List.mem_singleton.1 hnew']
        exact hkey
    · rw [find, hitems, List.find?_append]
      rw [find] at hfind
      simp [hfind]
    · intro key' hne
      rw [find, hitems, List.find?_append]
      simp [find, Ne.symm hne]
  | some old =>
    have hitems := setItem_of_find_some data hfind
    have hkeys : (f.setItem key data none).items.map (·.key) = f.items.map (·.key) := by
      rw [hitems, List.map_map]
      refine List.map_congr_left fun it _ => ?_
      show (if it.key = key then _ else it : FwItem).key = it.key
      split
      · exact (‹it.key = key›).symm
      · rfl
    have hmem : ∀ it ∈ f.items, it.key ≠ key → it ∈ (f.setItem key data none).items := fun it hit hne => by
      rw [hitems]
      exact List.mem_map.2 ⟨it, hit, if_neg hne⟩
    have holdmem := List.mem_of_find?_eq_some hfind
    have holdkey : old.key = key := by simpa using List.find?_some hfind
    refine ⟨⟨(nextFileKey_setItem data none).trans h.next, ?_, hkeys ▸ h.nodup, ?_⟩, ?_, ?_⟩
    · have hsame : (f.items.filter ((·.isFile) ∘ fun old => if old.key = key then ⟨key, data, old.name, false⟩ else old)) =
          f.items.filter (·.isFile) := by
        refine List.filter_congr fun it hit => ?_
        show (if it.key = key then _ else it : FwItem).isFile = it.isFile
        split
        · exact (Bool.eq_false_iff.2 fun hfile => hnotFile it hit hfile ‹_›).symm
        · rfl
      rw [hitems, List.filter_map, hsame, ← h.stored]
      refine (List.map_congr_left fun it hit => ?_).trans (List.map_id _)
      obtain ⟨hmem', hfile⟩ := List.mem_filter.1 hit
      exact if_neg (hnotFile it hmem' hfile)
    · rw [hitems]
      intro it hit hfile
      obtain ⟨it', hit', rfl⟩ := List.mem_map.1 hit
      by_cases hk : it'.key = key
      · rw [if_pos hk]
        exact hkey
      · rw [if_neg hk] at hfile ⊢
        exact h.low it' hit' hfile
    · have hnew : (⟨key, data, old.name, false⟩ : FwItem) ∈ (f.setItem key data none).items := by
        rw [hitems]
        exact List.mem_map.2 ⟨old, holdmem, if_pos holdkey⟩
      rw [find_of_mem (hkeys ▸ h.nodup) hnew]
      rfl
    · intro key' hne
      cases hfind' : f.find key' with
      | none => exact find_eq_none_iff.2 (hkeys ▸ find_eq_none_iff.1 hfind')
      | some it =>
        have hk : it.key = key' := by simpa using List.find?_some hfind'
        have := find_of_mem (hkeys ▸ h.nodup) (hmem it (List.mem_of_find?_eq_some hfind') (hk ▸ hne))
        rwa [hk] at this

lemma setItem_file (h : f.Table files low) (data : List U8) (hfits : low.length + (files.length + 1) ≤ 96)
    (hsmall : ∀ k ∈ low, k.toNat < 0x20) {name : List U8} (hname : name.length ≤ 55) :
    ({ f with nextFileKey := f.nextFileKey + 1 }.setItem f.nextFileKey data (some name)).Table
      (files ++ [(name, data)]) low := by
  have hnew : f.nextFileKey ∉ f.items.map (·.key) := by
    intro hmem
    obtain ⟨it, hit, hk⟩ := List.mem_map.1 hmem
    have hnext := toNat_fileKey (i := files.length) (by omega)
    rw [← h.next, ← hk] at hnext
    cases hfile : it.isFile with
    | true =>
      obtain ⟨i, hi, hki⟩ := h.exists_fileKey hit hfile
      have := toNat_fileKey (i := i) (by omega)
      rw [hki] at hnext
      omega
    | false =>
      have := hsmall _ (h.low it hit hfile)
      omega
  have hroom : f.items.length < 96 := by
    have := h.length_le
    omega
  have hitems := setItem_of_find_none (f := { f with nextFileKey := f.nextFileKey + 1 }) data (some name)
    (find_eq_none_iff.2 hnew) hroom
  refine ⟨?_, ?_, ?_, ?_⟩
  · rw [nextFileKey_setItem, h.next, List.length_append]
    show fileKey files.length + 1 = fileKey (files.length + 1)
    rw [fileKey, fileKey, ← Nat.add_assoc, ← BitVec.ofNat_add_ofNat (0x20 + files.length) 1]
    rfl
  · rw [hitems, List.filter_append, h.stored, fileItems, fileItems, List.zipIdx_append, List.map_append]
    simp [h.next, List.take_of_length_le hname]
  · rw [hitems, List.map_append, List.nodup_append]
    refine ⟨h.nodup, by simp, fun a ha b hb => ?_⟩
    rintro rfl
    rw [List.mem_singleton.1 hb] at ha
    exact hnew ha
  · rw [hitems]
    intro it hit hfile
    rcases List.mem_append.1 hit with hold | hlast
    · exact h.low it hold hfile
    · rw [List.mem_singleton.1 hlast] at hfile
      cases hfile

end Table

structure Filled (f : FwCfg) (files : List (List U8 × List U8)) (low : List U16) : Prop extends f.Table files low where
  directory : (f.find 0x19).map (·.data) = some (directoryBytes files)

namespace Filled
variable {f : FwCfg} {files : List (List U8 × List U8)} {low : List U16}

lemma addFile (h : f.Table files low) (hfits : low.length + (files.length + 1) ≤ 96)
    (hsmall : ∀ k ∈ low, k.toNat < 0x20) (hdir : 0x19 ∈ low) {name : List U8} (data : List U8) (hname : name.length ≤ 55) :
    (f.addFile name data).Filled (files ++ [(name, data)]) low := by
  have hfile := h.setItem_file data hfits hsmall hname
  obtain ⟨htable, hfind, -⟩ := hfile.setItem_low _ (by simpa using hfits) hdir (hsmall _ hdir)
  refine ⟨htable, hfind.trans ?_⟩
  rw [hfile.stored, length_fileItems]
  rfl

lemma setItem (h : f.Filled files low) (hfits : low.length + files.length ≤ 96) {key : U16} (data : List U8)
    (hkey : key ∈ low) (hsmall : key.toNat < 0x20) (hdir : key ≠ 0x19) : (f.setItem key data none).Filled files low := by
  obtain ⟨htable, -, hother⟩ := h.toTable.setItem_low data hfits hkey hsmall
  exact ⟨htable, by rw [hother _ hdir.symm, h.directory]⟩

lemma setLegacyKernel (h : f.Filled files low) (hfits : low.length + files.length ≤ 96)
    (hkeys : FwCall.kernelKeys ⊆ low) (kernel initrd : List U8) (cmdline : Option (List U8)) :
    (f.setLegacyKernel kernel initrd cmdline).Filled files low := by
  have hlegacy : ∀ it ∈ legacyItems kernel initrd cmdline, it.1 ∈ FwCall.kernelKeys := by
    simp [legacyItems, FwCall.kernelKeys]
  have hsmall : ∀ key ∈ FwCall.kernelKeys, key.toNat < 0x20 ∧ key ≠ 0x19 := by simp [FwCall.kernelKeys]
  unfold FwCfg.setLegacyKernel
  generalize legacyItems kernel initrd cmdline = items at hlegacy
  induction items generalizing f with
  | nil => exact h
  | cons it items ih =>
    have hkey := hlegacy it (by simp)
    obtain ⟨hlt, hne⟩ := hsmall _ hkey
    exact ih (h.setItem hfits it.2 (hkeys hkey) hlt hne) fun it' hit' => hlegacy it' (by simp [hit'])

end Filled

end FwCfg

namespace FwCall

lemma fixedKeys_subset_lowKeys (calls : List FwCall) : fixedKeys ⊆ lowKeys calls := by
  unfold lowKeys
  split
  · exact List.Subset.refl _
  · exact List.subset_append_left _ _

lemma lowKeys_lt (calls : List FwCall) : ∀ key ∈ lowKeys calls, key.toNat < 0x20 := by
  unfold lowKeys
  split <;> simp [fixedKeys, kernelKeys]

lemma lowKeys_append_file (calls : List FwCall) (name data : List U8) :
    lowKeys (calls ++ [file name data]) = lowKeys calls := by
  simp [lowKeys, file?]

lemma lowKeys_append_kernel (calls : List FwCall) (k i : List U8) (c : Option (List U8)) :
    lowKeys (calls ++ [kernel k i c]) = fixedKeys ++ kernelKeys := by
  simp [lowKeys, file?]

lemma lowKeys_subset (calls : List FwCall) : lowKeys calls ⊆ fixedKeys ++ kernelKeys := by
  unfold lowKeys
  split
  · exact List.subset_append_left _ _
  · exact List.Subset.refl _

lemma filled_initial : FwCfg.initial.Filled [] fixedKeys where
  next := by decide
  stored := rfl
  nodup := by decide
  low := by decide
  directory := by decide

lemma filled_run {calls : List FwCall} (hvalid : ∀ c ∈ calls, c.Valid) (hfits : Fits calls) :
    (run .initial calls).Filled (files calls) (lowKeys calls) := by
  -- over the calls from the last one: a prefix of calls that fit fits as well
  induction calls using List.reverseRecOn with
  | nil => exact filled_initial
  | append_singleton calls c ih =>
    have hrun : run .initial (calls ++ [c]) = c.apply (run .initial calls) := by simp [run]
    have hprev : ∀ c' ∈ calls, c'.Valid := fun c' hc' => hvalid c' (by simp [hc'])
    rw [hrun]
    cases c with
    | file name data =>
      have hfiles : files (calls ++ [file name data]) = files calls ++ [(name, data)] := by simp [files, file?]
      rw [Fits, hfiles, lowKeys_append_file, List.length_append] at hfits
      rw [hfiles, lowKeys_append_file]
      have h := ih hprev (by rw [Fits]; omega)
      exact .addFile h.toTable hfits (lowKeys_lt calls) (fixedKeys_subset_lowKeys calls (by decide)) data
        (hvalid (file name data) (by simp)).1
    | kernel k i t =>
      have hfiles : files (calls ++ [kernel k i t]) = files calls := by simp [files, file?]
      have hle : (lowKeys calls).length ≤ (fixedKeys ++ kernelKeys).length := by
        unfold lowKeys
        split <;> decide
      rw [Fits, hfiles, lowKeys_append_kernel] at hfits
      rw [hfiles, lowKeys_append_kernel]
      have h := ih hprev (by rw [Fits]; omega)
      exact FwCfg.Filled.setLegacyKernel ⟨h.toTable.mono (lowKeys_subset calls), h.directory⟩ hfits
        (List.subset_append_right _ _) k i t

end FwCall

section Format
open FwCfg

lemma length_dirEntry (it : FwItem) (h : it.name.length ≤ 56) : (dirEntry it).length = 64 := by
  simp only [dirEntry, be32, List.length_append, List.length_cons, List.length_nil, List.length_replicate]
  omega

lemma parse_dirEntry {it : FwItem} (hname : it.name.length ≤ 55) (hzero : 0 ∉ it.name) (hlen : it.data.length < 2 ^ 32) :
    DirFile.parse (dirEntry it) = ⟨it.data.length, it.key, it.name⟩ := by
  have hsize : (beWord (be32 (BitVec.ofNat 32 it.data.length))).toNat = it.data.length := by
    rw [toNat_beWord (by simp [be32]), beNat_be32, BitVec.toNat_ofNat, Nat.mod_eq_of_lt hlen]
  have hkey : (beWord [(it.key >>> 8).setWidth 8, it.key.setWidth 8]).setWidth 16 = it.key := by
    apply BitVec.eq_of_toNat_eq
    rw [BitVec.toNat_setWidth, toNat_beWord (by simp)]
    have := it.key.isLt
    simp only [beNat, List.foldl_cons, List.foldl_nil, BitVec.toNat_setWidth, BitVec.toNat_ushiftRight,
      Nat.shiftRight_eq_div_pow]
    omega
  have htext : (it.name ++ List.replicate (56 - it.name.length) 0).takeWhile (· ≠ 0) = it.name := by
    obtain ⟨n, hn⟩ : ∃ n, 56 - it.name.length = n + 1 := ⟨55 - it.name.length, by omega⟩
    rw [hn, List.replicate_succ, List.takeWhile_append_of_pos fun x hx => by
      simpa using fun h : x = 0 => hzero (h ▸ hx)]
    simp
  have hfield : (it.name ++ List.replicate (56 - it.name.length) (0 : U8)).length ≤ 56 := by
    rw [List.length_append, List.length_replicate]
    omega
  have hbytes : dirEntry it = be32 (BitVec.ofNat 32 it.data.length) ++
      ([(it.key >>> 8).setWidth 8, it.key.setWidth 8, 0, 0] ++ (it.name ++ List.replicate (56 - it.name.length) 0)) := by
    simp [dirEntry]
  rw [hbytes]
  show DirFile.mk (beWord (be32 _)).toNat ((beWord [_, _]).setWidth 16) (((it.name ++ _).take 56).takeWhile _) = _
  rw [hsize, hkey, List.take_of_length_le hfield, htext]

lemma parseEntries_flatten {items : List FwItem} (h : ∀ it ∈ items, it.name.length ≤ 55) :
    parseEntries items.length (items.map dirEntry).flatten = items.map fun it => .parse (dirEntry it) := by
  induction items with
  | nil => rfl
  | cons it items ih =>
    have hlen := length_dirEntry it ((h it (by simp)).trans (by decide))
    simp only [List.length_cons, List.map_cons, List.flatten_cons, parseEntries]
    rw [List.take_left' hlen, List.drop_left' hlen, ih fun it' hit' => h it' (by simp [hit'])]

def dirFiles (files : List (List U8 × List U8)) : List DirFile :=
  files.zipIdx.map fun (x, i) => ⟨x.2.length, fileKey i, x.1⟩

lemma parseDirectory_directoryBytes {files : List (List U8 × List U8)} (hcount : files.length < 2 ^ 32)
    (h : ∀ x ∈ files, x.1.length ≤ 55 ∧ 0 ∉ x.1 ∧ x.2.length < 2 ^ 32) :
    parseDirectory (directoryBytes files) = some (dirFiles files) := by
  have hitem : ∀ it ∈ fileItems files, it.name.length ≤ 55 ∧ 0 ∉ it.name ∧ it.data.length < 2 ^ 32 := by
    intro it hit
    obtain ⟨i, x, hx, rfl⟩ := FwCfg.Table.mem_fileItems hit
    exact h x (List.mem_of_getElem? hx)
  have hn : (beWord (be32 (BitVec.ofNat 32 files.length))).toNat = files.length := by
    rw [toNat_beWord (by simp [be32]), beNat_be32, BitVec.toNat_ofNat, Nat.mod_eq_of_lt hcount]
  have hlen : ∀ items : List FwItem, (∀ it ∈ items, it.name.length ≤ 55) →
      ((items.map dirEntry).flatten).length = 64 * items.length := by
    intro items hitems
    induction items with
    | nil => rfl
    | cons it items ih =>
      rw [List.map_cons, List.flatten_cons, List.length_append, ih fun it' hit' => hitems it' (by simp [hit']),
        length_dirEntry it ((hitems it (by simp)).trans (by decide)), List.length_cons]
      omega
  have hentries : parseEntries files.length ((fileItems files).map dirEntry).flatten = dirFiles files := by
    rw [← length_fileItems files, parseEntries_flatten fun it hit => (hitem it hit).1,
      List.map_congr_left fun it hit => parse_dirEntry (hitem it hit).1 (hitem it hit).2.1 (hitem it hit).2.2]
    simp [fileItems, dirFiles]
  have htake : (directoryBytes files).take 4 = be32 (BitVec.ofNat 32 files.length) := rfl
  have hdrop : (directoryBytes files).drop 4 = ((fileItems files).map dirEntry).flatten := rfl
  have hwhole : (directoryBytes files).length = 4 + 64 * files.length := by
    rw [directoryBytes, List.length_append, hlen _ fun it hit => (hitem it hit).1, length_fileItems]
    rfl
  rw [parseDirectory, htake, hn, hdrop, hentries, if_pos hwhole]

end Format

section Reading
variable {D : Type} (P : Platform D) (fw : Lens D FwCfg)

def readPort (b : Bus D) : ℕ → List U8
  | 0 => []
  | n + 1 => (fwcfgRead fw b 0 1).1.setWidth 8 :: readPort (fwcfgRead fw b 0 1).2 n

/-- Select a key, which the selector register takes big endian, and read from the port. -/
def readItem (b : Bus D) (key : U16) (n : ℕ) : List U8 :=
  readPort fw (fwcfgWrite P fw b 8 2 (((key >>> 8) ||| (key <<< 8)).setWidth 64)) n

variable {P fw}

lemma swap_swap (key : U16) :
    (((((key >>> 8) ||| (key <<< 8)).setWidth 64 : U64) >>> 8) |||
      ((((key >>> 8) ||| (key <<< 8)).setWidth 64 : U64) <<< 8)).setWidth 16 = key := by
  refine BitVec.eq_of_getLsbD_eq fun j hj => ?_
  by_cases h : j < 8
  · simp [hj, h, show 8 + j < 16 by omega, show 8 + j < 64 by omega, show 16 ≤ 8 + (8 + j) by omega]
  · simp [hj, h, show ¬ 8 + j < 16 by omega, show j - 8 < 8 by omega, show 8 + (j - 8) = j by omega,
      show j < 64 by omega, BitVec.getLsbD_of_ge key (8 + (8 + j)) (by omega)]

lemma readPort_eq {b : Bus D} {key : U16} {pos n : ℕ} (h : Tracks (fw.get b.dev) (some (key, pos)))
    (hn : pos + n ≤ 2 ^ 32) :
    readPort fw b n = (List.range n).map fun i => itemByte ((fw.get b.dev).find key) (pos + i) := by
  induction n generalizing b pos with
  | zero => rfl
  | succ n ih =>
    obtain ⟨hsel, hpos⟩ := h key pos rfl
    have hbyte : (fwcfgRead fw b 0 1).1.setWidth 8 = itemByte ((fw.get b.dev).find key) pos := by
      have hfirst := FwCfg.stream_byte ((fw.get b.dev).find key) (fw.get b.dev) Nat.one_pos (by decide)
      rw [FwCfg.byte_skip hpos, Nat.add_zero, Nat.mod_eq_of_lt (by omega)] at hfirst
      rw [← hfirst, ← hsel]
      rfl
    have hnext : fw.get (fwcfgRead fw b 0 1).2.dev = (fw.get b.dev).skip 1 := get_setFwcfg b _
    have htrack : Tracks (fw.get (fwcfgRead fw b 0 1).2.dev) (some (key, pos + 1)) := hnext ▸ h.skip 1
    have hrest := ih htrack (by omega)
    rw [readPort, hbyte, hrest, hnext, List.range_succ_eq_map, List.map_cons, List.map_map]
    simp only [Function.comp_def, Nat.succ_eq_add_one, Nat.add_assoc, Nat.add_comm 1]
    rfl

lemma readItem_eq {b : Bus D} {key : U16} {it : FwItem} (hit : (fw.get b.dev).find key = some it)
    (hlen : it.data.length < 2 ^ 32) : readItem P fw b key it.data.length = it.data := by
  have hsel : fwcfgWrite P fw b 8 2 (((key >>> 8) ||| (key <<< 8)).setWidth 64) =
      setFwcfg fw b ((fw.get b.dev).select key) := by
    rw [fwcfgWrite, if_pos rfl, swap_swap]
  have htrack : Tracks (fw.get (setFwcfg fw b ((fw.get b.dev).select key)).dev) (some (key, 0)) := by
    rw [get_setFwcfg]
    exact .select _ _
  have hfind : ((fw.get b.dev).select key).find key = some it := hit
  rw [readItem, hsel, readPort_eq htrack (by omega), get_setFwcfg, hfind]
  refine List.ext_getElem (by simp) fun i hi _ => ?_
  rw [List.length_map, List.length_range] at hi
  simp [itemByte, hi]

end Reading

lemma FwCall.valid_of_mem_files {calls : List FwCall} (hvalid : ∀ c ∈ calls, c.Valid) {x : List U8 × List U8}
    (hx : x ∈ files calls) : x.1.length ≤ 55 ∧ 0 ∉ x.1 ∧ x.2.length < 2 ^ 32 := by
  obtain ⟨c, hc, hfile⟩ := List.mem_filterMap.1 hx
  cases c with
  | file name data =>
    cases hfile
    exact hvalid _ hc
  | kernel => cases hfile

/-- A guest that parses the directory finds the added files in order, under keys of their
own that are neither those of `fwcfg_create` nor those of a kernel, and reads each of them
through the data port. -/
theorem directory_round_trip {calls : List FwCall} (hvalid : ∀ c ∈ calls, c.Valid) (hfits : FwCall.Fits calls) :
    ∃ dir entries, (FwCall.run .initial calls).find 0x19 = some dir ∧ parseDirectory dir.data = some entries ∧
      (entries.map (·.select)).Nodup ∧ (∀ e ∈ entries, e.select ∉ FwCall.fixedKeys ++ FwCall.kernelKeys) ∧
      List.Forall₂ (fun e x => e.name = x.1 ∧ e.size = x.2.length ∧
        ∀ {D : Type} (P : Platform D) (fw : Lens D FwCfg) (b : Bus D),
          (fw.get b.dev).items = (FwCall.run .initial calls).items → readItem P fw b e.select e.size = x.2)
        entries (FwCall.files calls) := by
  have h := FwCall.filled_run hvalid hfits
  have hfiles : ∀ x ∈ FwCall.files calls, _ := fun x => FwCall.valid_of_mem_files hvalid
  have hcount : (FwCall.files calls).length ≤ 96 := by
    have := hfits
    rw [FwCall.Fits] at this
    omega
  obtain ⟨dir, hdir, hdata⟩ := Option.map_eq_some_iff.1 h.directory
  refine ⟨dir, dirFiles (FwCall.files calls), hdir, ?_, ?_, ?_, ?_⟩
  · rw [hdata, parseDirectory_directoryBytes (by omega) hfiles]
  · have hkeys : (dirFiles (FwCall.files calls)).map (·.select) =
        ((FwCall.run .initial calls).items.filter (·.isFile)).map (·.key) := by
      rw [h.stored]
      simp [dirFiles, FwCfg.fileItems]
    rw [hkeys]
    exact h.nodup.sublist (List.filter_sublist.map _)
  · intro e he hlow
    have hlt : ∀ k ∈ FwCall.fixedKeys ++ FwCall.kernelKeys, k.toNat < 0x20 := by
      simp [FwCall.fixedKeys, FwCall.kernelKeys]
    obtain ⟨⟨x, i⟩, hx, rfl⟩ := List.mem_map.1 he
    have hi := (List.getElem?_eq_some_iff.1 (List.mk_mem_zipIdx_iff_getElem?.1 hx)).1
    have := hlt _ hlow
    rw [FwCfg.Table.toNat_fileKey (by omega)] at this
    omega
  · refine List.forall₂_iff_get.2 ⟨by simp [dirFiles], fun i hi hi' => ?_⟩
    set x := (FwCall.files calls).get ⟨i, hi'⟩ with hx
    have he : (dirFiles (FwCall.files calls)).get ⟨i, hi⟩ = ⟨x.2.length, FwCfg.fileKey i, x.1⟩ := by
      simp [dirFiles, hx]
    have hitem : (⟨FwCfg.fileKey i, x.2, x.1, true⟩ : FwItem) ∈ (FwCall.run .initial calls).items := by
      have hmem : (⟨FwCfg.fileKey i, x.2, x.1, true⟩ : FwItem) ∈ FwCfg.fileItems (FwCall.files calls) :=
        List.mem_map.2 ⟨(x, i), List.mk_mem_zipIdx_iff_getElem?.2 (by simp [hx]), rfl⟩
      exact (List.mem_filter.1 (h.stored ▸ hmem)).1
    rw [he]
    refine ⟨rfl, rfl, fun P fw b hb => ?_⟩
    have hfind : (fw.get b.dev).find (FwCfg.fileKey i) = some ⟨FwCfg.fileKey i, x.2, x.1, true⟩ := by
      rw [FwCfg.find, hb]
      exact FwCfg.find_of_mem h.nodup hitem
    exact readItem_eq hfind (hfiles x (List.getElem_mem hi')).2.2

def fwCalls : List FwCall :=
  [.file [0x61] [1, 2, 3], .kernel [0x4d, 0x5a] [] (some [0x71]), .file [0x62, 0x2f, 0x63] []]

theorem directory_of_two_files :
    (∀ c ∈ fwCalls, c.Valid) ∧ FwCall.Fits fwCalls ∧
      ∃ dir entries, (FwCall.run .initial fwCalls).find 0x19 = some dir ∧ parseDirectory dir.data = some entries ∧
        (entries.map (·.select)).Nodup := by
  have hvalid : ∀ c ∈ fwCalls, c.Valid := by simp [fwCalls, FwCall.Valid]
  have hfits : FwCall.Fits fwCalls := by
    unfold FwCall.Fits
    decide
  obtain ⟨dir, entries, hdir, hparse, hnodup, -⟩ := directory_round_trip hvalid hfits
  exact ⟨hvalid, hfits, dir, entries, hdir, hparse, hnodup⟩

end Arm64Emu
