/-
# Streams and inputs

Reading an input moves a stream and does nothing else to the host. What is read does
not depend on where the stream stood: every operation seeks first, so a stream that
can be sought is read from its start (`Host.readStream_eq`), and one that cannot is
not read at all.
-/
import Raster.Host.Basic

namespace Raster

/-! ### Streams -/

namespace Host

/-- Warnings change no file. -/
@[simp] theorem files_warnAll (host : Host) (messages : List String) :
    (host.warnAll messages).files = host.files := by
  induction messages generalizing host with
  | nil => rfl
  | cons m ms ih => exact ih (host.warn m)

/-- Nor do they move a stream. -/
@[simp] theorem streams_warnAll (host : Host) (messages : List String) :
    (host.warnAll messages).streams = host.streams := by
  induction messages generalizing host with
  | nil => rfl
  | cons m ms ih => exact ih (host.warn m)

/-- Only the last seek counts. -/
theorem seek_seek (host : Host) (id p q : Nat) : (host.seek id p).seek id q = host.seek id q := by
  rw [seek, seek, seek]
  congr 1
  refine List.ext_getElem? fun i => ?_
  rw [List.getElem?_modify, List.getElem?_modify, List.getElem?_modify]
  by_cases hi : id = i
  · simp only [hi, if_true]
    cases host.streams[i]? <;> rfl
  · simp only [hi, if_false]
    cases host.streams[i]? <;> rfl

/-- Whether a stream can be sought does not depend on where it is read. -/
theorem seekFault?_seek (host : Host) (id position : Nat) :
    (host.seek id position).seekFault? id = host.seekFault? id := by
  simp only [seekFault?, seek, List.getElem?_modify_eq]
  cases host.streams[id]? <;> rfl

/-- What a stream holds does not depend on where it is read. -/
theorem streamBytes_seek (host : Host) (id position : Nat) :
    (host.seek id position).streamBytes id = host.streamBytes id := by
  simp only [streamBytes, seek, List.getElem?_modify_eq]
  cases host.streams[id]? <;> rfl

/-- A stream that cannot be sought cannot be read either. -/
theorem streamBytes_of_seekFault {host : Host} {id : Nat} {fault : IoFault}
    (h : host.seekFault? id = some fault) : host.streamBytes id = .error fault := by
  rw [seekFault?] at h
  rw [streamBytes]
  cases hstream : host.streams[id]? with
  | none =>
    rw [hstream] at h
    cases h
  | some s =>
    rw [hstream] at h
    obtain ⟨content, position⟩ := s
    cases content with
    | bytes content => cases h
    | node node => cases h
    | stuck other =>
      obtain rfl := Option.some.inj h
      rfl

/-- Putting a stream back leaves it at its start, or where it was. -/
theorem rewind_snd (host : Host) (id : Nat) :
    (host.rewind id).2 = host ∨ (host.rewind id).2 = host.seek id 0 := by
  rw [rewind]
  cases host.seekFault? id with
  | some fault => exact .inl rfl
  | none => exact .inr rfl

/-- Reading a stream comes down to what it holds. -/
theorem readStream_eq (host : Host) (id : Nat) : host.readStream id =
    match host.streamBytes id with
    | .ok bytes => (.ok bytes, host.seek id bytes.length)
    | .error fault => (.error (.io fault), (host.rewind id).2) := by
  rw [readStream, rewind]
  cases hfault : host.seekFault? id with
  | some fault =>
    rw [streamBytes_of_seekFault hfault]
  | none =>
    dsimp only
    rw [streamBytes_seek]
    cases host.streamBytes id with
    | error fault => rfl
    | ok bytes => exact congrArg _ (host.seek_seek id 0 bytes.length)

end Host

/-! ### Inputs -/

namespace Input

/-- What an input holds depends on files and streams alone. -/
theorem readAll_fst_congr {a b : Host} (input : Input) (hfiles : a.files = b.files)
    (hstreams : a.streams = b.streams) : (input.readAll a).1 = (input.readAll b).1 := by
  cases input with
  | file path => simp only [readAll, hfiles]
  | buffer bytes => rfl
  | stream id =>
    have hbytes : a.streamBytes id = b.streamBytes id := by
      rw [Host.streamBytes, Host.streamBytes, hstreams, hfiles]
    simp only [readAll, Host.readStream_eq, hbytes]
    cases b.streamBytes id <;> rfl

/-- Reading an input leaves what it holds. -/
theorem readAll_readAll {input : Input} {host : Host} {bytes : Bytes}
    (h : (input.readAll host).1 = .ok bytes) :
    (input.readAll (input.readAll host).2).1 = .ok bytes := by
  cases input with
  | file path => exact h
  | buffer content => exact h
  | stream id =>
    simp only [readAll, Host.readStream_eq] at h ⊢
    cases hbytes : host.streamBytes id with
    | error fault =>
      rw [hbytes] at h
      cases h
    | ok content =>
      rw [hbytes] at h
      obtain rfl := Except.ok.inj h
      simp only [Host.streamBytes_seek, hbytes]

/-- Reading changes no file, whatever is read. -/
theorem files_readAll (input : Input) (host : Host) :
    (input.readAll host).2.files = host.files := by
  cases input with
  | file path => rfl
  | buffer bytes => rfl
  | stream id =>
    rw [readAll, Host.readStream_eq]
    cases host.streamBytes id with
    | ok bytes => rfl
    | error fault => obtain hkept | hmoved := host.rewind_snd id <;> simp only [*, Host.seek]

end Input

end Raster
