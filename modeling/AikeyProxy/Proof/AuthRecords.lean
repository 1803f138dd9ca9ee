import AikeyProxy.Proxy.AuthJournal

/-!
# Reading back the records of the auth-failure journal

A record that was appended whole is read back as itself, and a file of such lines is not taken for a
snapshot of the predecessor. So replaying the file is replaying its records
(`replayLines_encodeRecords`).
-/

namespace AikeyProxy.Proxy

open Lib List SampleField Option Json
open Supervisor (trimSpace equalFold isSpace)

/-! ### One record -/

theorem valid_write {s : AuthFailureSample} {f : SampleField} {v : Json} (h : f.write s = some v) :
    Json.Valid v := by
  cases f with
  | upstreamStatus =>
    simp only [write] at h
    split at h <;> cases h
    exact valid_ofInt _
  | upstreamErrorType =>
    simp only [write] at h
    split at h <;> cases h
    rw [Json.Valid] <;> simp
  | _ => cases h; rw [Json.Valid] <;> simp

theorem valid_marshalSample (s : AuthFailureSample) : Json.Valid (marshalSample s) := by
  rw [marshalSample, Json.Valid]
  refine validMembers_iff.mpr fun m hm => ?_
  obtain ⟨f, -, hf⟩ := mem_filterMap.mp hm
  obtain ⟨v, hv, rfl⟩ := map_eq_some_iff.mp hf
  exact valid_write hv

section

variable (r : AuthFailureJournalRecord)

theorem valid_marshalRecord : Json.Valid (marshalRecord r) := by
  rw [marshalRecord, Json.Valid]
  refine validMembers_iff.mpr fun m hm => ?_
  rcases mem_append.mp hm with hm | hm
  · simp only [mem_cons, not_mem_nil, or_false] at hm
    rcases hm with rfl | rfl
    · exact valid_ofInt _
    · simp [Json.Valid]
  · cases hf : r.failure with
    | none => rw [hf] at hm; cases hm
    | some s =>
      rw [hf, mem_singleton] at hm
      rw [hm]
      exact valid_marshalSample s

theorem readInt_ofInt (old n : Int64) : readInt old (.ofInt n.toInt) = some n := by
  have h := toInt64?_ofInt n
  unfold ofInt at h ⊢
  split
  next hneg =>
    rwa [if_pos hneg] at h
  next hneg =>
    rwa [if_neg hneg] at h

theorem find_tag (f : SampleField) :
    (SampleField.all.find? fun g => equalFold f.tag g.tag) = some f := by
  cases f <;> decide

def copyField (s old : AuthFailureSample) (f : SampleField) : Option AuthFailureSample :=
  match f.write s with
  | none => some old
  | some v => f.read old v

theorem foldlM_write (s : AuthFailureSample) (fs : List SampleField) (old : AuthFailureSample) :
    (fs.filterMap fun f => (f.write s).map fun v => (f.tag, v)).foldlM readSampleMember old =
      fs.foldlM (copyField s) old := by
  induction fs generalizing old with
  | nil => rfl
  | cons f fs ih =>
    cases hw : f.write s with
    | none =>
      have hcopy : copyField s old f = some old := by rw [copyField, hw]
      rw [filterMap_cons, hw, map_none, foldlM_cons, hcopy]
      exact ih old
    | some v =>
      have hcopy : copyField s old f = f.read old v := by rw [copyField, hw]
      rw [filterMap_cons, hw, map_some, foldlM_cons, readSampleMember, find_tag,
        foldlM_cons, hcopy]
      exact congrArg _ (funext ih)

theorem copyField_status (s old : AuthFailureSample) (h : old.upstreamStatus = 0) :
    copyField s old .upstreamStatus = some { old with upstreamStatus := s.upstreamStatus } := by
  by_cases hzero : s.upstreamStatus = 0
  · have hw : write s .upstreamStatus = none := if_pos hzero
    rw [copyField, hw, hzero, ← h]
  · have hw : write s .upstreamStatus = some (.ofInt s.upstreamStatus.toInt) :=
      if_neg hzero
    rw [copyField, hw]
    simp only [SampleField.read, readInt_ofInt, map_some]

theorem copyField_errorType (s old : AuthFailureSample) (h : old.upstreamErrorType = "") :
    copyField s old .upstreamErrorType =
      some { old with upstreamErrorType := s.upstreamErrorType } := by
  by_cases hzero : s.upstreamErrorType = ""
  · have hw : write s .upstreamErrorType = none := if_pos hzero
    rw [copyField, hw, hzero, ← h]
  · have hw : write s .upstreamErrorType = some (.str s.upstreamErrorType) :=
      if_neg hzero
    rw [copyField, hw]
    rfl

theorem unmarshalSample_marshalSample (s : AuthFailureSample) :
    unmarshalSample .zero (marshalSample s) = some s := by
  rw [marshalSample, unmarshalSample, foldlM_write]
  -- The first five fields are copied as they stand.
  have htexts : SampleField.all.foldlM (copyField s) .zero =
      [SampleField.upstreamStatus, .upstreamErrorType].foldlM (copyField s)
        { s with upstreamStatus := 0, upstreamErrorType := "" } := rfl
  rw [htexts, foldlM_cons, copyField_status _ _ rfl, bind_eq_bind, bind_some,
    foldlM_cons, copyField_errorType _ _ rfl]
  rfl

theorem readRecordMember_version (n : Int64) :
    readRecordMember ⟨0, "", none⟩ ("version", .ofInt n.toInt) = some ⟨n, "", none⟩ := by
  have htag : equalFold "version" "version" = true := by decide
  rw [readRecordMember, if_pos htag, readInt_ofInt]
  rfl

theorem readRecordMember_op (n : Int64) (op : String) :
    readRecordMember ⟨n, "", none⟩ ("op", .str op) = some ⟨n, op, none⟩ := by
  have hversion : ¬ equalFold "op" "version" = true := by decide
  have htag : equalFold "op" "op" = true := by decide
  rw [readRecordMember, if_neg hversion, if_pos htag]
  rfl

theorem readRecordMember_failure (n : Int64) (op : String) (s : AuthFailureSample) :
    readRecordMember ⟨n, op, none⟩ ("failure", marshalSample s) = some ⟨n, op, some s⟩ := by
  have hversion : ¬ equalFold "failure" "version" = true := by decide
  have hop : ¬ equalFold "failure" "op" = true := by decide
  have htag : equalFold "failure" "failure" = true := by decide
  have hread := unmarshalSample_marshalSample s
  rw [readRecordMember, if_neg hversion, if_neg hop, if_pos htag]
  unfold marshalSample at hread ⊢
  dsimp only
  rw [getD_none, hread]
  rfl

/-- **A record is read back.** -/
theorem unmarshalRecord_print : unmarshalRecord (marshalRecord r).print = some r := by
  rw [unmarshalRecord, parse_print (valid_marshalRecord r), marshalRecord]
  obtain ⟨version, op, failure⟩ := r
  dsimp only
  rw [cons_append, foldlM_cons, readRecordMember_version, bind_eq_bind,
    bind_some, singleton_append, foldlM_cons, readRecordMember_op,
    bind_eq_bind, bind_some]
  cases failure with
  | none => rfl
  | some s =>
    dsimp only
    rw [foldlM_cons, readRecordMember_failure]
    rfl

/-! ### Lines -/

theorem splitLines_line {line : List Char} (h : '\n' ∉ line) (rest : List Char) :
    splitLines (line ++ '\n' :: rest) = line :: splitLines rest := by
  induction line with
  | nil => simp [splitLines]
  | cons c line ih =>
    rw [mem_cons, not_or] at h
    rw [cons_append, splitLines, if_neg (Ne.symm h.1), ih h.2]

theorem newline_notMem_print : '\n' ∉ (marshalRecord r).print := by
  intro h
  exact absurd (print_printable _ (valid_marshalRecord r) '\n' h) (by decide)

theorem print_marshalRecord : ∃ cs, (marshalRecord r).print = '{' :: (cs ++ ['}']) :=
  print_obj _

theorem trimSpace_print : trimSpace (marshalRecord r).print = (marshalRecord r).print := by
  obtain ⟨cs, hcs⟩ := print_marshalRecord r
  rw [hcs, trimSpace, dropWhile_cons_of_neg (by decide), ← cons_append]
  rw [rdropWhile_concat_neg _ _ _ (by decide)]

end

theorem replayLine_print (o : AuthOutbox) (r : AuthFailureJournalRecord) :
    replayLine o (marshalRecord r).print = replayRecord o r := by
  obtain ⟨cs, hcs⟩ := print_marshalRecord r
  have hne : (marshalRecord r).print ≠ [] := by rw [hcs]; exact cons_ne_nil _ _
  simp only [replayLine, trimSpace_print, if_neg hne, unmarshalRecord_print]

/-- **Replaying whole lines is replaying their records.** -/
theorem replayLines_encodeRecords (records : List AuthFailureJournalRecord) (o : AuthOutbox) :
    (splitLines (encodeRecords records)).foldl replayLine o = records.foldl replayRecord o := by
  induction records generalizing o with
  | nil => rfl
  | cons r records ih =>
    have hline := splitLines_line (newline_notMem_print r) (encodeRecords records)
    rw [encodeRecords, flatMap_cons, append_assoc, singleton_append]
    rw [show records.flatMap _ = encodeRecords records from rfl, hline, foldl_cons,
      foldl_cons, replayLine_print, ih]

theorem legacyFailures_encodeRecords (records : List AuthFailureJournalRecord) :
    legacyFailures (encodeRecords records) = none := by
  cases records with
  | nil => rfl
  | cons r records =>
    have htext : encodeRecords (r :: records) =
        (marshalRecord r).print ++ '\n' :: encodeRecords records := by
      simp [encodeRecords]
    rw [legacyFailures, htext, parse_append (valid_marshalRecord r)
      (noNumber_cons (by decide) _)]
    by_cases hrest : skipBlanks ('\n' :: encodeRecords records) = []
    · rw [if_pos hrest, marshalRecord]
      cases r.failure with
      | none | some s => rfl
    · rw [if_neg hrest]

end AikeyProxy.Proxy
