import AikeyProxy.Events.ContentReporter
import Mathlib.Data.Nat.Digits.Defs

/-!
# The content WAL stays within its caps

The name of a file begins with thirteen digits of the time it was opened at, so names sort as times
do for as long as thirteen digits hold them (`contentFileName_lt`). Then the files stand in the order
they were opened in, the open one is the last, and eviction drops the first (`CapInv`).
-/

namespace AikeyProxy.Events

open Lib List

/-! ## Names and times -/

def padded (width n : Nat) : List Char :=
  List.replicate (width - (Nat.toDigits 10 n).length) '0' ++ Nat.toDigits 10 n

theorem toList_zeroPad (width n : Nat) : (zeroPad width n).toList = padded width n := by
  have hlen : n.repr.length = (Nat.toDigits 10 n).length := by
    rw [← String.length_toList, Nat.toList_repr]
  simp [zeroPad, padded, hlen]

variable {w m n : Nat}

theorem padded_succ (hw : 0 < w) (n : Nat) :
    padded (w + 1) n = padded w (n / 10) ++ [Nat.digitChar (n % 10)] := by
  unfold padded
  by_cases hn : n < 10
  · obtain ⟨k, rfl⟩ := Nat.exists_eq_add_of_lt hw
    rw [Nat.toDigits_of_lt_base hn, Nat.div_eq_of_lt hn, Nat.mod_eq_of_lt hn]
    simp [replicate_succ']
  · rw [Nat.toDigits_of_base_le (by decide) (Nat.le_of_not_lt hn), length_append,
      length_singleton, Nat.add_sub_add_right, append_assoc]

theorem length_padded (hw : 0 < w) (h : n < 10 ^ w) : (padded w n).length = w := by
  have hle := Nat.toDigits_length 10 n w hw h
  rw [padded, length_append, length_replicate]
  omega

theorem lt_append {a b : List Char} (hlen : a.length = b.length) (h : a < b) (x y : List Char) :
    a ++ x < b ++ y := by
  induction a generalizing b with
  | nil =>
    cases b with
    | nil => exact absurd h (lt_irrefl _)
    | cons => cases hlen
  | cons c a ih =>
    cases b with
    | nil => cases hlen
    | cons d b =>
      rw [cons_append, cons_append, cons_lt_cons_iff]
      obtain hlt | ⟨rfl, hlt⟩ := cons_lt_cons_iff.mp h
      · exact .inl hlt
      · exact .inr ⟨rfl, ih (Nat.succ.inj hlen) hlt⟩

theorem digitChar_lt : ∀ m < 10, ∀ n < 10, m < n → [Nat.digitChar m] < [Nat.digitChar n] := by decide

theorem padded_lt (hw : 0 < w) (hmn : m < n) (hn : n < 10 ^ w) : padded w m < padded w n := by
  induction w, hw using Nat.le_induction generalizing m n with
  | base =>
    have hn : n < 10 := hn
    rw [padded, padded, Nat.toDigits_of_lt_base (by omega), Nat.toDigits_of_lt_base hn]
    exact digitChar_lt m (by omega) n hn hmn
  | succ w hw ih =>
    have hn' : n / 10 < 10 ^ w := by
      rw [Nat.pow_succ] at hn
      omega
    rw [padded_succ hw, padded_succ hw]
    by_cases hlt : m / 10 < n / 10
    · refine lt_append ?_ (ih hlt hn') _ _
      rw [length_padded hw (hlt.trans hn'), length_padded hw hn']
    · have heq : m / 10 = n / 10 := by omega
      rw [heq]
      exact append_left_lt (digitChar_lt _ (by omega) _ (by omega) (by omega))

/-- **Names sort as times do**, up to the year 2286. -/
theorem contentFileName_lt {t t' : Nat} (c c' : Nat) (h : t < t') (ht : t' < 10 ^ 13) :
    contentFileName t c < contentFileName t' c' := by
  rw [String.lt_iff_toList_lt]
  simp only [contentFileName, String.toList_append, toList_zeroPad, append_assoc]
  refine append_left_lt (lt_append ?_ (padded_lt (by decide) h ht) _ _)
  rw [length_padded (by decide) (h.trans ht), length_padded (by decide) ht]

/-! ## Runs of appends -/

structure ContentAppend where
  now : Nat
  sourceID : String
  sourceSeq : Int
  record : String

/-- The WAL, the timestamp of its newest file, and all that was appended. -/
structure CappedWAL where
  wal : ContentWAL
  stamp : Option Nat
  appended : List ContentWALEntry

def CappedWAL.init : CappedWAL := ⟨.init, none, []⟩

variable (cfg : ContentWALConfig) (json : ContentWALEntry → Nat)

def lineSize (e : ContentWALEntry) : Nat := json e + 1

def ContentAppend.entry (a : ContentAppend) (s : CappedWAL) : ContentWALEntry :=
  s.wal.nextEntry a.sourceID a.sourceSeq a.record

def ContentAppend.env (a : ContentAppend) (s : CappedWAL) : AppendEnv :=
  ⟨a.now, lineSize json (a.entry s), fun _ => true⟩

section

variable (s : CappedWAL) (a : ContentAppend)

def Opens : Prop :=
  (s.wal.ensureFile cfg (a.env json s)).rotCtr ≠ s.wal.rotCtr

instance (s : CappedWAL) (a : ContentAppend) : Decidable (Opens cfg json s a) :=
  inferInstanceAs (Decidable (_ ≠ _))

def capStep : Option CappedWAL :=
  some {
    wal := s.wal.append cfg (a.env json s) (a.entry s)
    stamp := if Opens cfg json s a then some a.now else s.stamp
    appended := s.appended ++ [a.entry s] }

/-- A file is opened later than the one before it, at a time of at most thirteen digits. -/
def StampOk : Prop :=
  Opens cfg json s a → (∀ t ∈ s.stamp, t < a.now) ∧ a.now < 10 ^ 13

end

instance (s : CappedWAL) (a : ContentAppend) : Decidable (StampOk cfg json s a) :=
  inferInstanceAs (Decidable (_ → _ ∧ _))

def fileBytes (f : ContentFile) : Nat := (f.entries.map (lineSize json)).sum

structure Capped (s : CappedWAL) : Prop where
  bytes : ∀ f ∈ s.wal.files, fileBytes json f ≤ cfg.maxBytes ∨ f.entries.length = 1
  count : s.wal.files.length ≤ cfg.maxFiles
  current : s.appended ≠ [] → ∃ f ∈ s.wal.files, f.name = s.wal.current
  newest : contents s.wal.files <:+ s.appended

/-- The files stand in the order of their names, which is the one they were opened in. -/
structure CapInv (s : CappedWAL) : Prop where
  named : ∀ f ∈ s.wal.files, ∃ t c, f.name = contentFileName t c ∧ ∃ stamp ∈ s.stamp, t ≤ stamp
  sorted : s.wal.files.Pairwise fun f g => f.name < g.name
  count : s.wal.files.length ≤ cfg.maxFiles
  bytes : ∀ f ∈ s.wal.files, fileBytes json f ≤ cfg.maxBytes ∨ f.entries.length = 1
  last : s.wal.current = "" ∧ s.appended = [] ∨
    ∃ older es, s.wal.files = older ++ [⟨s.wal.current, es⟩] ∧ es ≠ [] ∧
      s.wal.curBytes = fileBytes json ⟨s.wal.current, es⟩
  newest : s.wal.files.flatMap LogFile.entries <:+ s.appended

variable {cfg json} {s s' : CappedWAL} {a : ContentAppend}

theorem capInv_init : CapInv cfg json .init where
  named := nofun
  sorted := .nil
  count := Nat.zero_le _
  bytes := nofun
  last := .inl ⟨rfl, rfl⟩
  newest := suffix_rfl

theorem appendToFile_last {older : List ContentFile} {name : String} (e : ContentWALEntry)
    (es : List ContentWALEntry) (h : ∀ f ∈ older, f.name ≠ name) :
    appendToFile name e (older ++ [⟨name, es⟩]) = older ++ [⟨name, es ++ [e]⟩] := by
  induction older with
  | nil => simp [appendToFile]
  | cons f older ih =>
    rw [cons_append, appendToFile, if_neg (h f mem_cons_self),
      ih fun g hg => h g (mem_cons_of_mem _ hg)]
    rfl

/-- A file with the greatest name is opened behind the others, and at most the first one goes. -/
theorem evict_touch {files : List ContentFile} {name : String}
    (hsorted : files.Pairwise fun f g => f.name < g.name) (hname : ∀ f ∈ files, f.name < name)
    (hcount : files.length ≤ cfg.maxFiles) :
    ∃ kept, kept <:+ files ∧ kept.length < cfg.maxFiles ∧
      evictBeyondCap cfg (fun _ => true) name (touch name files) = kept ++ [⟨name, []⟩] := by
  have htouch : touch name files = files ++ [⟨name, []⟩] := by
    rw [touch, if_neg]
    simp only [any_eq_true, decide_eq_true_eq, not_exists, not_and]
    exact fun f hf heq => String.lt_irrefl _ (heq ▸ hname f hf)
  have hall : (files ++ [(⟨name, []⟩ : ContentFile)]).Pairwise fun f g => f.name ≤ g.name := by
    refine (pairwise_append.mpr ⟨hsorted, pairwise_singleton _ _, ?_⟩).imp le_of_lt
    simpa using hname
  rw [htouch, evictBeyondCap, sortedFiles, hall.insertionSort_eq]
  have hlen : (files ++ [(⟨name, []⟩ : ContentFile)]).length = files.length + 1 := by simp
  split
  next hfit => exact ⟨files, suffix_rfl, by omega, rfl⟩
  next hover =>
    -- one file too many, and it is not the one just opened
    have hpos := cfg.pos.2
    obtain ⟨f, older, rfl⟩ := exists_cons_of_length_pos (l := files) (by omega)
    have hne : f.name ≠ name := fun heq => String.lt_irrefl _ (heq ▸ hname f mem_cons_self)
    rw [length_cons] at hcount hlen
    refine ⟨older, suffix_cons f older, by omega, ?_⟩
    rw [show _ - cfg.maxFiles = 1 by omega, cons_append, evictOver, if_neg (by simp [hne]),
      evictOver]

theorem CapInv.append {kept : List ContentFile} {es : List ContentWALEntry} {e : ContentWALEntry}
    {name : String} {stamp : Option Nat} {seq rotCtr : Nat} (hi : CapInv cfg json s)
    (hkept : kept <:+: s.wal.files) (hlt : ∀ f ∈ kept, f.name < name)
    (hcount : kept.length < cfg.maxFiles)
    (hstamp : ∀ t ∈ s.stamp, ∃ t' ∈ stamp, t ≤ t')
    (hname : ∃ t c, name = contentFileName t c ∧ ∃ t' ∈ stamp, t ≤ t')
    (hbytes : fileBytes json ⟨name, es ++ [e]⟩ ≤ cfg.maxBytes ∨ es = [])
    (hnewest : kept.flatMap LogFile.entries ++ es <:+ s.appended) :
    CapInv cfg json ⟨⟨kept ++ [⟨name, es ++ [e]⟩], name, fileBytes json ⟨name, es ++ [e]⟩, seq, rotCtr⟩,
      stamp, s.appended ++ [e]⟩ where
  named := by
    intro f hf
    obtain hf | rfl := mem_append.mp hf |>.imp_right mem_singleton.mp
    · obtain ⟨t, c, hf, t', ht', hle⟩ := hi.named f (hkept.subset hf)
      obtain ⟨t'', ht'', hle'⟩ := hstamp t' ht'
      exact ⟨t, c, hf, t'', ht'', hle.trans hle'⟩
    · exact hname
  sorted := by
    refine pairwise_append.mpr
      ⟨hi.sorted.sublist hkept.sublist, pairwise_singleton _ _, ?_⟩
    simpa using hlt
  count := by
    rw [length_append, length_singleton]
    exact hcount
  bytes := by
    intro f hf
    obtain hf | rfl := mem_append.mp hf |>.imp_right mem_singleton.mp
    · exact hi.bytes f (hkept.subset hf)
    · exact hbytes.imp_right fun h => by simp [h]
  last := .inr ⟨kept, es ++ [e], rfl, by simp, rfl⟩
  newest := by
    obtain ⟨gone, hgone⟩ := hnewest
    exact ⟨gone, by simp [← hgone]⟩

theorem lineSize_pos (es : List ContentWALEntry) (name : String) (h : es ≠ []) :
    0 < fileBytes json ⟨name, es⟩ := by
  obtain ⟨e, es, rfl⟩ := exists_cons_of_ne_nil h
  simp only [fileBytes, map_cons, sum_cons, lineSize]
  omega

theorem CapInv.step (hi : CapInv cfg json s) (hok : StampOk cfg json s a)
    (h : capStep cfg json s a = some s') : CapInv cfg json s' := by
  cases h
  by_cases hstay : s.wal.current ≠ "" ∧
      ¬ (0 < s.wal.curBytes ∧ cfg.maxBytes < s.wal.curBytes + (a.env json s).incoming)
  · have hens : s.wal.ensureFile cfg (a.env json s) = s.wal := if_pos hstay
    obtain ⟨hempty, -⟩ | ⟨older, es, hfiles, hes, hcur⟩ := hi.last
    · exact absurd hempty hstay.1
    have hsorted := hi.sorted
    rw [hfiles, pairwise_append] at hsorted
    have hlt : ∀ f ∈ older, f.name < s.wal.current := by simpa using hsorted.2.2
    have hsum : fileBytes json ⟨s.wal.current, es ++ [a.entry s]⟩ =
        s.wal.curBytes + (a.env json s).incoming := by
      simp [hcur, fileBytes, ContentAppend.env]
    have hroom := not_and.mp hstay.2 (hcur ▸ lineSize_pos es _ hes)
    have hcount := hi.count
    obtain ⟨t, c, hname, t', ht', hle⟩ := hi.named ⟨s.wal.current, es⟩ (by simp [hfiles])
    have hnew := hi.newest
    rw [hfiles, flatMap_append, flatMap_singleton] at hnew
    rw [hfiles, length_append, length_singleton] at hcount
    have hclosed : ¬ Opens cfg json s a := by simp [Opens, hens]
    have hwal : s.wal.append cfg (a.env json s) (a.entry s) =
        ⟨older ++ [⟨s.wal.current, es ++ [a.entry s]⟩], s.wal.current,
          fileBytes json ⟨s.wal.current, es ++ [a.entry s]⟩, s.wal.seq + 1, s.wal.rotCtr⟩ := by
      rw [ContentWAL.append, hens, hfiles, appendToFile_last _ _ fun f hf => ne_of_lt (hlt f hf), hsum]
    rw [if_neg hclosed, hwal]
    exact hi.append ⟨[], [⟨s.wal.current, es⟩], by simp [hfiles]⟩ hlt hcount
      (fun t ht => ⟨t, ht, le_rfl⟩) ⟨t, c, hname, t', ht', hle⟩
      (.inl (by rw [hsum]; omega)) hnew
  · have hens : s.wal.ensureFile cfg (a.env json s) = _ := if_neg hstay
    have hopens : Opens cfg json s a := by
      rw [Opens, hens]
      exact Nat.succ_ne_self _
    obtain ⟨hlater, hdigits⟩ := hok hopens
    have hlt : ∀ f ∈ s.wal.files, f.name < contentFileName a.now (s.wal.rotCtr + 1) := by
      intro f hf
      obtain ⟨t, c, hf, t', ht', hle⟩ := hi.named f hf
      rw [hf]
      exact contentFileName_lt _ _ (hle.trans_lt (hlater t' ht')) hdigits
    obtain ⟨kept, hkept, hcount, hevict⟩ := evict_touch hi.sorted hlt hi.count
    have hwal : s.wal.append cfg (a.env json s) (a.entry s) =
        ⟨kept ++ [⟨contentFileName a.now (s.wal.rotCtr + 1), [] ++ [a.entry s]⟩],
          contentFileName a.now (s.wal.rotCtr + 1),
          fileBytes json ⟨contentFileName a.now (s.wal.rotCtr + 1), [] ++ [a.entry s]⟩,
          s.wal.seq + 1, s.wal.rotCtr + 1⟩ := by
      rw [ContentWAL.append, hens]
      dsimp only [ContentAppend.env]
      rw [hevict, appendToFile_last _ _ fun f hf => ne_of_lt (hlt f (hkept.subset hf))]
      simp [fileBytes]
    rw [if_pos hopens, hwal]
    refine hi.append hkept.isInfix (fun f hf => hlt f (hkept.subset hf)) hcount
      (fun t ht => ⟨a.now, rfl, (hlater t ht).le⟩) ⟨_, _, rfl, a.now, rfl, le_rfl⟩ (.inr rfl) ?_
    obtain ⟨gone, hgone⟩ := hkept
    rw [append_nil]
    refine List.IsSuffix.trans ⟨gone.flatMap LogFile.entries, ?_⟩ hi.newest
    rw [← hgone, flatMap_append]

/-- **The content WAL stays within its caps and keeps the newest entries**, whatever the sizes of
the entries. -/
theorem content_wal_capped (cfg : ContentWALConfig) (json : ContentWALEntry → Nat)
    (appends : List ContentAppend) (s : CappedWAL)
    (hrun : Guarded (capStep cfg json) (StampOk cfg json) .init appends s) : Capped cfg json s := by
  have hi : CapInv cfg json s := hrun.invariant (fun _ _ _ hi hok hs => hi.step hok hs) capInv_init
  refine ⟨hi.bytes, hi.count, fun hne => ?_, ?_⟩
  · obtain ⟨-, hnil⟩ | ⟨older, es, hfiles, -⟩ := hi.last
    · exact absurd hnil hne
    · exact ⟨⟨s.wal.current, es⟩, by simp [hfiles], rfl⟩
  · rw [contents, sortedFiles, (hi.sorted.imp le_of_lt).insertionSort_eq]
    exact hi.newest

def tightConfig : ContentWALConfig := ⟨1, 2, by decide⟩

def appendAt (now : Nat) : ContentAppend := ⟨now, "src", 1, "rec"⟩

theorem tight_wal_capped :
    ∃ s, exec (capStep tightConfig fun _ => 0) .init [appendAt 7, appendAt 8, appendAt 9] = some s ∧
      s.wal.files.length = 2 ∧ Capped tightConfig (fun _ => 0) s := by
  refine ⟨_, rfl, by decide +kernel, content_wal_capped _ _ [appendAt 7, appendAt 8, appendAt 9] _ ?_⟩
  exact .of_guardedExec (by rfl)

/-- With the fourteenth digit the newer file sorts before the older one, and goes first. -/
theorem fourteenth_digit_evicts_newer :
    ∃ s, exec (capStep tightConfig fun _ => 0) .init
        [appendAt 9999999999999, appendAt 10000000000000, appendAt 10000000000001] = some s ∧
      (contents s.wal.files).map ContentWALEntry.walSeq = [3, 1] ∧
      ¬ contents s.wal.files <:+ s.appended :=
  ⟨_, rfl, by decide +kernel, by decide +kernel⟩

end AikeyProxy.Events
