import RcControl.Lib.NalStream
import RcControl.Streaming.Model
import Mathlib.Data.List.Forall2

/-!
# Samples and NAL units

`create_encoder` leaves the encoding variant of H264 at its default, an Annex B byte stream, and the
callback sends each buffer as a sample. `addVideo` tells the packetizer that a sample is a sequence of
length-prefixed units. `survives_iff` says for which streams this goes well.
-/

namespace RcControl.Streaming

open Lib.NalStream Mmal Streamer

/-- `H264RtpPacketizer::Separator`. -/
inductive Separator where
  | Length | LongStartSequence | ShortStartSequence | StartSequence

/-- The separator `addVideo` configures. -/
def addVideoSeparator : Separator := .Length

/-- How the packetizer reads a sample. -/
def Reads : Separator → List UInt8 → List (List UInt8) → Prop
  | .Length, sample, ns => splitLength sample = some ns
  | _, sample, ns => AnnexB ns sample

/-- The samples of the buffers are read as units that are `ns` in all. -/
def Survives (ns : List (List UInt8)) (bufs : List BufferHeader) : Prop :=
  ∃ nss, List.Forall₂ (fun x ms => Reads addVideoSeparator (sampleOf x) ms) bufs nss ∧
    nss.flatten = ns

section Survives

variable {ns : List (List UInt8)} {bufs : List BufferHeader} {nss : List (List (List UInt8))}

lemma frames_of_reads
    (h : List.Forall₂ (fun x ms => Reads addVideoSeparator (sampleOf x) ms) bufs nss) :
    Frames nss.flatten (bufs.flatMap BufferHeader.payload) := by
  induction h with
  | nil => exact .nil
  | cons hx _ ih => exact (frames_of_splitLength hx).append ih

lemma oneByte_of_reads
    (h : List.Forall₂ (fun x ms => Reads addVideoSeparator (sampleOf x) ms) bufs nss)
    (hone : ∀ n ∈ nss.flatten, n.length = 1) : ∀ x ∈ bufs, OneByte x.payload := by
  induction h with
  | nil => exact fun x hx => absurd hx List.not_mem_nil
  | cons hx _ ih =>
    rw [List.flatten_cons] at hone
    refine List.forall_mem_cons.2 ⟨?_, ih fun n hn => hone n (List.mem_append_right _ hn)⟩
    exact (frames_of_splitLength hx).oneByte fun n hn => hone n (List.mem_append_left _ hn)

lemma reads_of_oneByte (h : ∀ x ∈ bufs, OneByte x.payload) :
    ∃ xs : List UInt8, bufs.flatMap BufferHeader.payload = xs.flatMap (fun x => [0, 0, 0, 1, x]) ∧
      ∃ nss, List.Forall₂ (fun x ms => Reads addVideoSeparator (sampleOf x) ms) bufs nss ∧
        nss.flatten = xs.map fun x => [x] := by
  induction bufs with
  | nil => exact ⟨[], rfl, [], .nil, rfl⟩
  | cons x bufs ih =>
    obtain ⟨ys, hys⟩ := h x List.mem_cons_self
    obtain ⟨xs, hxs, nss, hall, hflat⟩ := ih fun y hy => h y (List.mem_cons_of_mem x hy)
    refine ⟨ys ++ xs, ?_, (ys.map fun y => [y]) :: nss, .cons ?_ hall, ?_⟩
    · rw [List.flatMap_cons, hys, hxs, List.flatMap_append]
    · show splitLength x.payload = some _
      rw [hys]
      exact splitLength_oneByte ys
    · rw [List.flatten_cons, hflat, List.map_append]

/-- **Packetisation.** The units of a byte stream, cut into buffers anywhere, survive exactly if each
buffer is made of whole units of a single byte, each behind a start code of four bytes. -/
theorem survives_iff (h : AnnexB ns (bufs.flatMap BufferHeader.payload)) :
    Survives ns bufs ↔ ∀ x ∈ bufs, OneByte x.payload := by
  constructor
  · rintro ⟨nss, hall, rfl⟩
    exact oneByte_of_reads hall (annexB_frames h (frames_of_reads hall))
  · intro hone
    obtain ⟨xs, hxs, nss, hall, hflat⟩ := reads_of_oneByte hone
    rw [hxs] at h
    exact ⟨nss, hall, hflat.trans (annexB_oneByte xs h).symm⟩

end Survives

/-- A buffer with these bytes. -/
def bufferOf (data : List UInt8) (h : data.length < UInt32.size) : BufferHeader where
  cmd := 0
  data := data
  length := data.length
  flags := 0
  dts := 0
  length_le := le_refl _
  length_lt := h

lemma isNal_single {b : UInt8} (h : b ≠ 0) : IsNal [b] where
  ne := by simp
  last := h
  noStartCode c _ hin := absurd hin.length_le (by simp)

/-- A stream of one unit of one byte. -/
theorem survives_oneByte :
    Survives [[9]] [bufferOf [0, 0, 0, 1, 9] (by decide)] ↔
      ∀ x ∈ [bufferOf [0, 0, 0, 1, 9] (by decide)], OneByte x.payload :=
  survives_iff (AnnexB.nal 1 [9] (isNal_single (by decide)) (.done 0))

/-- An access unit delimiter, two bytes behind a start code of four, in one buffer. -/
theorem twoBytes_notSurvives :
    ¬ ∀ (ns : List (List UInt8)) (bufs : List BufferHeader),
      AnnexB ns (bufs.flatMap BufferHeader.payload) → Survives ns bufs := by
  intro hclaim
  have hnal : IsNal [9, 16] := by
    refine ⟨by simp, by decide, fun b _ hin => ?_⟩
    have hlen := hin.length_le
    simp at hlen
  obtain ⟨nss, hall, hflat⟩ := hclaim [[9, 16]] [bufferOf [0, 0, 0, 1, 9, 16] (by decide)]
    (AnnexB.nal 1 [9, 16] hnal (.done 0))
  rcases hall with _ | ⟨hx, hnil⟩
  have hone := annexB_frames (AnnexB.nal 1 [9, 16] hnal (.done 0))
    (hflat ▸ frames_of_reads (.cons hx hnil))
  exact absurd (hone [9, 16] List.mem_cons_self) (by decide)

end RcControl.Streaming
