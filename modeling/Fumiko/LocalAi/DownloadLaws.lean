import Fumiko.LocalAi.Download

namespace Fumiko.LocalAi.Download

open Fumiko.Foundation

theorem tempPath_ne (destPath : Path) : destPath ≠ destPath.tempPath := by
  intro h
  have hname : destPath.fileName = destPath.tempPath.fileName := congrArg Path.fileName h
  cases hfile : destPath.fileName with
  | raw bytes =>
    rw [hfile] at hname
    cases hname
  | utf8 name =>
    have hlength := congrArg (fun f => f.toStr.map String.length) hname
    simp [Path.tempPath, hfile, FileName.toStr] at hlength

section Invariant

variable {destPath : Path} {d : Download} {s : Disk} {v : Volume Path}

def Consistent (destPath : Path) (d : Download) (v : Volume Path) : Prop :=
  match d.phase with
  | .streaming writer unread =>
    v.names destPath.tempPath = some writer.file ∧
      writer.offset = (v.contents writer.file).length ∧
      v.contents writer.file ++ writer.unwritten ++ unread.flatten = d.body
  | .abandoned writer => writer.writing ≠ [] → v.names destPath.tempPath = some writer.file
  | .flushed | .removing | .replacing => v.read destPath.tempPath = some d.body
  | _ => True

theorem consistent_of_not_holds (h : ¬d.HoldsTemp) : Consistent destPath d v := by
  rw [Consistent]
  split <;> simp_all [HoldsTemp]

/-- What the downloads have made of the volume, when `old` stood at the destination before. -/
structure Orderly (destPath : Path) (old : Option (List UInt8)) (s : Disk)
    (tasks : List Download) : Prop where
  consistent : ∀ d ∈ tasks, Consistent destPath d s.volume
  single : tasks.Pairwise fun d u => ¬(d.HoldsTemp ∧ u.HoldsTemp)
  complete : ∀ content, s.volume.read destPath = some content →
    old = some content ∨ ∃ d ∈ tasks, d.phase = .returned ∧ d.body = content
  kept : s.volume.read destPath = none → old = none
  returned : ∀ d ∈ tasks, d.phase = .returned →
    ∃ u ∈ tasks, u.phase = .returned ∧ s.volume.read destPath = some u.body

variable {old : Option (List UInt8)} {tasks others : List Download} {d' : Download} {s' : Disk}

theorem Orderly.perm {us : List Download} (hperm : tasks.Perm us)
    (h : Orderly destPath old s tasks) : Orderly destPath old s us where
  consistent d hd := h.consistent d (hperm.mem_iff.mpr hd)
  single := h.single.perm hperm fun hne hholds => hne hholds.symm
  complete content hread :=
    (h.complete content hread).imp_right fun ⟨d, hd, hbody⟩ => ⟨d, hperm.mem_iff.mp hd, hbody⟩
  kept := h.kept
  returned d hd hreturned :=
    have ⟨u, hu, hread⟩ := h.returned d (hperm.mem_iff.mpr hd) hreturned
    ⟨u, hperm.mem_iff.mp hu, hread⟩

theorem Orderly.start (hd : d.phase = .requesting) (h : Orderly destPath old s tasks) :
    Orderly destPath old s (d :: tasks) where
  consistent := by
    intro u hu
    cases hu with
    | head =>
      rw [Consistent, hd]
      trivial
    | tail _ hu => exact h.consistent u hu
  single := by
    apply List.Pairwise.cons _ h.single
    rintro u hu ⟨hholds, -⟩
    rw [HoldsTemp, hd] at hholds
    exact hholds
  complete content hread :=
    (h.complete content hread).imp_right fun ⟨u, hu, hbody⟩ => ⟨u, List.mem_cons_of_mem d hu, hbody⟩
  kept := h.kept
  returned := by
    intro u hu hreturned
    cases hu with
    | head =>
      rw [hd] at hreturned
      cases hreturned
    | tail _ hu =>
      obtain ⟨u, hu, hread⟩ := h.returned u hu hreturned
      exact ⟨u, List.mem_cons_of_mem d hu, hread⟩

section Step

variable (h : Orderly destPath old s (d :: others))
include h

theorem Orderly.others_free (hd : d.HoldsTemp) : ∀ u ∈ others, ¬u.HoldsTemp :=
  fun u hu hholds => (List.pairwise_cons.mp h.single).1 u hu ⟨hd, hholds⟩

theorem Orderly.others_consistent (hd : d.HoldsTemp) :
    ∀ u ∈ others, Consistent destPath u v :=
  fun u hu => consistent_of_not_holds (h.others_free hd u hu)

theorem Orderly.goOn (hphase : d.phase ≠ .returned) (hphase' : d'.phase ≠ .returned)
    (hread : s'.volume.read destPath = s.volume.read destPath)
    (hconsistent : Consistent destPath d' s'.volume)
    (hothers : ∀ u ∈ others, Consistent destPath u s'.volume)
    (hfree : d'.HoldsTemp → ∀ u ∈ others, ¬u.HoldsTemp) :
    Orderly destPath old s' (d' :: others) where
  consistent := List.forall_mem_cons.mpr ⟨hconsistent, hothers⟩
  single := by
    apply List.Pairwise.cons _ (List.pairwise_cons.mp h.single).2
    rintro u hu ⟨hholds, hholds'⟩
    exact hfree hholds u hu hholds'
  complete := by
    intro content hcontent
    rw [hread] at hcontent
    apply (h.complete content hcontent).imp_right
    rintro ⟨u, hu, hreturned, hbody⟩
    cases hu with
    | head => exact absurd hreturned hphase
    | tail _ hu => exact ⟨u, List.mem_cons_of_mem d' hu, hreturned, hbody⟩
  kept := by
    rw [hread]
    exact h.kept
  returned := by
    intro u hu hreturned
    cases hu with
    | head => exact absurd hreturned hphase'
    | tail _ hu =>
      rw [hread]
      obtain ⟨w, hw, hreturned', hbody⟩ := h.returned u (List.mem_cons_of_mem d hu) hreturned
      cases hw with
      | head => exact absurd hreturned' hphase
      | tail _ hw => exact ⟨w, List.mem_cons_of_mem d' hw, hreturned', hbody⟩

theorem Orderly.arrive (hholds : d.HoldsTemp) (hphase' : d'.phase = .returned)
    (hread : s'.volume.read destPath = some d'.body) : Orderly destPath old s' (d' :: others) where
  consistent := by
    apply List.forall_mem_cons.mpr ⟨?_, h.others_consistent hholds⟩
    rw [Consistent, hphase']
    trivial
  single := by
    apply List.Pairwise.cons _ (List.pairwise_cons.mp h.single).2
    rintro u hu ⟨-, hholds'⟩
    exact h.others_free hholds u hu hholds'
  complete := by
    intro content hcontent
    rw [hread] at hcontent
    cases hcontent
    exact Or.inr ⟨d', List.mem_cons_self, hphase', rfl⟩
  kept hnone := by simp [hread] at hnone
  returned u hu hreturned := ⟨d', List.mem_cons_self, hphase', hread⟩

theorem Orderly.wait (hphase : d.phase ≠ .returned) (hphase' : d'.phase ≠ .returned)
    (hholds : d'.HoldsTemp → d.HoldsTemp)
    (hconsistent : Consistent destPath d s.volume → Consistent destPath d' s.volume) :
    Orderly destPath old s (d' :: others) :=
  h.goOn hphase hphase' rfl (hconsistent (h.consistent d List.mem_cons_self))
    (fun u hu => h.consistent u (List.mem_cons_of_mem d hu)) fun hd' => h.others_free (hholds hd')

theorem Orderly.fail (hphase : d.phase ≠ .returned) :
    Orderly destPath old s ({ d with phase := .failed } :: others) :=
  h.wait hphase (by simp) (by simp [HoldsTemp]) fun _ => trivial

theorem Orderly.write {file : Nat} (hholds : d.HoldsTemp) (hphase : d.phase ≠ .returned)
    (hphase' : d'.phase ≠ .returned) (hfile : s.volume.names destPath.tempPath = some file)
    (offset : Nat) (bytes : List UInt8)
    (hconsistent : Consistent destPath d' (s.volume.write file offset bytes)) :
    Orderly destPath old { s with volume := s.volume.write file offset bytes } (d' :: others) := by
  apply h.goOn hphase hphase' _ hconsistent (h.others_consistent hholds) fun _ =>
    h.others_free hholds
  apply Volume.read_write_of_ne
  intro hdest
  exact tempPath_ne destPath (s.volume.directory.one_name hdest hfile)

theorem Orderly.create (hphase : d.phase = .creating) (hsafe : ∀ u ∈ others, ¬u.HoldsTemp) :
    Orderly destPath old { s with volume := s.volume.create destPath.tempPath }
      ({ d with phase := .streaming (.new (s.volume.opened destPath.tempPath)) d.chunks } ::
        others) := by
  have hne : d.phase ≠ .returned := by simp [hphase]
  have hempty := s.volume.contents_create destPath.tempPath
  apply h.goOn hne (by simp) (s.volume.read_create_of_ne (tempPath_ne destPath)) _
    (fun u hu => consistent_of_not_holds (hsafe u hu)) fun _ => hsafe
  refine ⟨s.volume.names_create _, ?_, ?_⟩
  · exact (congrArg List.length hempty).symm
  · exact congrArg (· ++ [] ++ d.chunks.flatten) hempty

theorem Orderly.rename (hphase : d.phase = .replacing) :
    Orderly destPath old { s with volume := s.volume.rename destPath.tempPath destPath }
      ({ d with phase := .returned } :: others) := by
  have htemp := h.consistent d List.mem_cons_self
  rw [Consistent, hphase] at htemp
  apply h.arrive (by simp [HoldsTemp, hphase]) rfl
  exact Volume.read_rename _ htemp

end Step

section Turn

section Streaming

variable {volume : Volume Path} {failing : Bool} {chunks unread unread' : List (List UInt8)}
  {writer writer' : BufWriter}

def remaining (writer : BufWriter) (unread : List (List UInt8)) : Nat :=
  2 * (unread.flatten.length + unread.length) + writer.buffer.length

theorem resume_streaming_cases (destPath : Path) (volume : Volume Path)
    (chunks unread : List (List UInt8)) (writer : BufWriter) :
    (Download.resume destPath ⟨chunks, .streaming writer unread⟩ ⟨volume, false⟩ =
        (⟨chunks, .flushed⟩, ⟨volume, false⟩) ∧ writer.unwritten = [] ∧ unread = []) ∨
    ∃ writer' unread',
      Download.resume destPath ⟨chunks, .streaming writer unread⟩ ⟨volume, false⟩ =
        (⟨chunks, .streaming writer' unread'⟩, ⟨volume, false⟩) ∧
      writer'.file = writer.file ∧ writer'.offset = writer.offset ∧
      writer'.unwritten ++ unread'.flatten = writer.unwritten ++ unread.flatten ∧
      (writer.writing = [] → remaining writer' unread' < remaining writer unread) := by
  match unread with
  | [] :: unread =>
    refine Or.inr ⟨writer, unread, rfl, rfl, rfl, rfl, fun _ => ?_⟩
    simp only [remaining, List.flatten_cons, List.nil_append, List.length_cons]
    omega
  | (byte :: chunk) :: unread =>
    have hbytes := writer.unwritten_pollWrite capacity maxBufSize (byte :: chunk)
    refine Or.inr ⟨(writer.pollWrite capacity maxBufSize (byte :: chunk)).1,
      (writer.pollWrite capacity maxBufSize (byte :: chunk)).2 :: unread, rfl,
      writer.file_pollWrite _ _ _, writer.offset_pollWrite _ _ _, ?_, fun hidle => ?_⟩
    · exact (List.append_assoc _ _ unread.flatten).symm.trans
        ((congrArg (· ++ unread.flatten) hbytes).trans (List.append_assoc _ _ _))
    · have hlt := writer.pollWrite_lt capacity hidle (List.cons_ne_nil byte chunk)
        (by decide : 0 < maxBufSize)
      simp only [remaining, List.flatten_cons, List.length_append, List.length_cons] at hlt ⊢
      omega
  | [] =>
    rw [Download.resume]
    dsimp only
    split
    · next hflushed => exact Or.inl ⟨rfl, BufWriter.isFlushed_iff.mp hflushed, rfl⟩
    · next hflushed =>
      refine Or.inr ⟨writer.flushBuf, [], rfl, writer.file_flushBuf, writer.offset_flushBuf,
        congrArg (· ++ []) writer.unwritten_flushBuf, fun hidle => ?_⟩
      have hbuffer : 0 < writer.buffer.length := by
        apply List.length_pos_iff.mpr
        intro hnil
        exact hflushed (BufWriter.isFlushed_iff.mpr (by simp [BufWriter.unwritten, hidle, hnil]))
      simpa [remaining, BufWriter.flushBuf_of_idle hidle] using hbuffer

theorem Orderly.take (h : Orderly destPath old ⟨volume, failing⟩
      (⟨chunks, .streaming writer unread⟩ :: others))
    (hfile : writer'.file = writer.file) (hoffset : writer'.offset = writer.offset)
    (hbytes : writer'.unwritten ++ unread'.flatten = writer.unwritten ++ unread.flatten) :
    Orderly destPath old ⟨volume, failing⟩ (⟨chunks, .streaming writer' unread'⟩ :: others) := by
  apply h.wait (by simp) (by simp) fun _ => trivial
  rintro ⟨hname, hend, hbody⟩
  rw [List.append_assoc, ← hbytes, ← List.append_assoc] at hbody
  simp only [Consistent, hfile, hoffset]
  exact ⟨hname, hend, hbody⟩

theorem Orderly.resume_streaming (h : Orderly destPath old ⟨volume, failing⟩
      (⟨chunks, .streaming writer unread⟩ :: others)) :
    Orderly destPath old
      (Download.resume destPath ⟨chunks, .streaming writer unread⟩ ⟨volume, failing⟩).2
      ((Download.resume destPath ⟨chunks, .streaming writer unread⟩ ⟨volume, failing⟩).1 ::
        others) := by
  cases failing with
  | true =>
    simp only [Download.resume]
    apply h.wait (by simp) (by simp) fun _ => trivial
    rintro ⟨hfile, -⟩ -
    exact hfile
  | false =>
    obtain ⟨hresume, hunwritten, rfl⟩ | ⟨writer', unread', hresume, hfile, hoffset, hbytes, -⟩ :=
      resume_streaming_cases destPath volume chunks unread writer
    · rw [hresume]
      apply h.wait (by simp) (by simp) fun _ => trivial
      rintro ⟨hname, -, hbody⟩
      simp only [hunwritten, List.flatten_nil, List.append_nil] at hbody
      exact Option.map_eq_some_iff.mpr ⟨writer.file, hname, hbody⟩
    · rw [hresume]
      exact h.take hfile hoffset hbytes

end Streaming

theorem Orderly.resume (h : Orderly destPath old s (d :: others)) (hsafe : Safe destPath s d others) :
    Orderly destPath old (d.resume destPath s).2 ((d.resume destPath s).1 :: others) := by
  obtain ⟨chunks, phase⟩ := d
  obtain ⟨volume, failing⟩ := s
  cases phase with
  | requesting =>
    cases failing
    · change Orderly destPath old ⟨volume, false⟩ (⟨chunks, .creating⟩ :: others)
      exact h.wait (by simp) (by simp) id id
    · exact h.fail (by simp)
  | creating =>
    cases failing
    · exact h.create rfl (hsafe.resolve_left (by simp))
    · exact h.fail (by simp)
  | streaming writer unread => exact h.resume_streaming
  | abandoned writer =>
    change Orderly destPath old ⟨volume, failing⟩ (⟨chunks, .failed⟩ :: others)
    exact h.fail (by simp)
  | flushed =>
    cases failing
    · rw [Download.resume]
      dsimp only
      split <;> exact h.wait (by simp) (by simp) id id
    · change Orderly destPath old ⟨volume, true⟩ (⟨chunks, .replacing⟩ :: others)
      exact h.wait (by simp) (by simp) id id
  | removing =>
    have hmove : Orderly destPath old ⟨volume, failing⟩ (⟨chunks, .replacing⟩ :: others) :=
      h.wait (by simp) (by simp) id id
    cases failing
    · have habsent : volume.read destPath = none := hsafe.resolve_left (by simp)
      change Orderly destPath old ⟨volume.remove destPath, false⟩ (⟨chunks, .replacing⟩ :: others)
      rwa [Volume.remove_of_absent _ (Option.map_eq_none_iff.mp habsent)]
    · exact hmove
  | replacing =>
    cases failing
    · have htemp : volume.read destPath.tempPath = some chunks.flatten :=
        h.consistent _ List.mem_cons_self
      rw [Download.resume]
      simp only [htemp]
      exact h.rename rfl
    · exact h.fail (by simp)
  | returned => cases failing <;> exact h
  | failed => cases failing <;> exact h.fail (by simp)

theorem Orderly.writes (h : Orderly destPath old s (d :: others)) (n : Nat) :
    Orderly destPath old (d.writes n s).2 ((d.writes n s).1 :: others) := by
  have hd := h.consistent d List.mem_cons_self
  obtain ⟨chunks, phase⟩ := d
  cases phase with
  | streaming writer unread =>
    obtain ⟨hfile, hoffset, hbody⟩ := hd
    apply h.write trivial (by simp) (by simp [Download.writes]) hfile
    refine ⟨hfile, BufWriter.offset_write n hoffset, ?_⟩
    exact (congrArg (· ++ unread.flatten) (BufWriter.contents_write n hoffset)).trans hbody
  | abandoned writer =>
    by_cases hwriting : writer.writing = []
    · simp only [Download.writes, BufWriter.write_of_idle hwriting]
      exact h
    · have hfile := hd hwriting
      exact h.write hwriting (by simp) (by simp [Download.writes]) hfile _ _ fun _ => hfile
  | _ => exact h

theorem Orderly.step (h : Orderly destPath old s (d :: others)) (hstep : Step destPath d s d' s')
    (hsafe : Safe destPath s d others) : Orderly destPath old s' (d' :: others) := by
  cases hstep with
  | resume => exact h.resume hsafe
  | writes n => exact h.writes n

end Turn

theorem Orderly.run {p q : Pool Disk Download} (h : Orderly destPath old p.shared p.tasks)
    (hrun : Pool.Run (rules destPath) (Safe destPath) p q) : Orderly destPath old q.shared q.tasks := by
  apply Pool.Run.keeps _ _ _ _ hrun h
  · intro s ts us hperm h
    exact h.perm hperm
  · intro d s ts hstart h
    exact h.start hstart
  · intro d s d' s' others hstep hd h
    exact h.step hstep hd
  · rintro s _ ts ⟨failing, rfl⟩ h
    exact ⟨h.consistent, h.single, h.complete, h.kept, h.returned⟩

theorem Orderly.none (s : Disk) : Orderly destPath (s.volume.read destPath) s [] where
  consistent := by simp
  single := .nil
  complete _ hread := Or.inl hread
  kept := id
  returned := by simp

theorem Orderly.rebase (h : Orderly destPath old s tasks) :
    Orderly destPath (s.volume.read destPath) s tasks where
  consistent := h.consistent
  single := h.single
  complete _ hread := Or.inl hread
  kept := id
  returned := h.returned

end Invariant

/-- In a run in which the downloads keep out of each other's way and none removes the old file,
the destination is never partial, and never lost. -/
theorem safe_run_intact {destPath : Path} {s : Disk} {p q : Pool Disk Download}
    (hreach : Pool.Run (rules destPath) (Safe destPath) ⟨s, []⟩ p)
    (hrun : Pool.Run (rules destPath) (Safe destPath) p q) : Intact destPath p q := by
  have hp : Orderly destPath (s.volume.read destPath) p.shared p.tasks :=
    (Orderly.none s).run hreach
  have hq : Orderly destPath (p.shared.volume.read destPath) q.shared q.tasks :=
    hp.rebase.run hrun
  constructor
  · exact hq.complete _
  · exact hq.kept
  · exact hq.returned _

section Alone

variable {destPath : Path} {chunks : List (List UInt8)} {v : Volume Path}

theorem alone_resume (d : Download) (s : Disk) :
    Pool.Alone (rules destPath) (d, s) (d.resume destPath s) :=
  .single (Step.resume d s)

theorem alone_streaming (writer : BufWriter) (unread : List (List UInt8)) (v : Volume Path)
    (hoffset : writer.offset = (v.contents writer.file).length) :
    ∃ w : Volume Path, w.names = v.names ∧
      w.contents writer.file = v.contents writer.file ++ writer.unwritten ++ unread.flatten ∧
      Pool.Alone (rules destPath) (⟨chunks, .streaming writer unread⟩, ⟨v, false⟩)
        (⟨chunks, .flushed⟩, ⟨w, false⟩) := by
  induction hn : remaining writer unread using Nat.strongRecOn
    generalizing writer unread v with
  | ind n ih =>
    -- First the write under way comes to its end.
    have hwrite : Pool.Alone (rules destPath) (⟨chunks, .streaming writer unread⟩, ⟨v, false⟩) _ :=
      .single (Step.writes writer.writing.length _ _)
    have hoffset' := BufWriter.offset_write writer.writing.length hoffset
    have hcontents := BufWriter.contents_write writer.writing.length hoffset
    have hidle : (writer.write writer.writing.length v).1.writing = [] := List.drop_length
    have hremaining : remaining (writer.write writer.writing.length v).1 unread = n := hn
    have hfile : (writer.write writer.writing.length v).1.file = writer.file := rfl
    have hnames : (writer.write writer.writing.length v).2.names = v.names := rfl
    simp only [writes] at hwrite
    generalize writer.write writer.writing.length v = after at *
    obtain ⟨writer', v'⟩ := after
    have hstep : Pool.Alone (rules destPath) (⟨chunks, .streaming writer' unread⟩, ⟨v', false⟩) _ :=
      alone_resume _ _
    obtain ⟨hresume, hunwritten, rfl⟩ | ⟨writer'', unread', hresume, hfile', hoffset'', hbytes, hlt⟩ :=
      resume_streaming_cases destPath v' chunks unread writer'
    · rw [hresume] at hstep
      refine ⟨v', hnames, ?_, hwrite.trans hstep⟩
      rw [← hcontents, hunwritten]
      simp
    · rw [hresume] at hstep
      obtain ⟨w, hnames', hw, halone⟩ := ih _ (hremaining ▸ hlt hidle) writer'' unread' v'
        (by rw [hoffset'', hfile', hfile]; exact hoffset') rfl
      refine ⟨w, hnames'.trans hnames, ?_, hwrite.trans (hstep.trans halone)⟩
      rw [hfile', hfile, List.append_assoc, hbytes, ← List.append_assoc, hcontents] at hw
      exact hw

theorem alone_replacing (htemp : v.read destPath.tempPath = some chunks.flatten) :
    ∃ w : Volume Path, w.read destPath = some chunks.flatten ∧
      Pool.Alone (rules destPath) (⟨chunks, .replacing⟩, ⟨v, false⟩)
        (⟨chunks, .returned⟩, ⟨w, false⟩) := by
  refine ⟨v.rename destPath.tempPath destPath, v.read_rename htemp, ?_⟩
  have hstep : Pool.Alone (rules destPath) (⟨chunks, .replacing⟩, ⟨v, false⟩) _ :=
    alone_resume _ _
  simpa only [Download.resume, htemp] using hstep

theorem alone_flushed (htemp : v.read destPath.tempPath = some chunks.flatten) :
    ∃ w : Volume Path, w.read destPath = some chunks.flatten ∧
      Pool.Alone (rules destPath) (⟨chunks, .flushed⟩, ⟨v, false⟩)
        (⟨chunks, .returned⟩, ⟨w, false⟩) := by
  have hstep : Pool.Alone (rules destPath) (⟨chunks, .flushed⟩, ⟨v, false⟩) _ := alone_resume _ _
  cases hdest : v.read destPath with
  | none =>
    simp only [Download.resume, hdest] at hstep
    obtain ⟨w, hw, halone⟩ := alone_replacing htemp
    exact ⟨w, hw, hstep.trans halone⟩
  | some content =>
    simp only [Download.resume, hdest] at hstep
    have htemp' : (v.remove destPath).read destPath.tempPath = some chunks.flatten := by
      rw [Volume.read_remove_of_ne _ (tempPath_ne destPath).symm, htemp]
    obtain ⟨w, hw, halone⟩ := alone_replacing htemp'
    exact ⟨w, hw, hstep.trans (.head (Step.resume _ _) halone)⟩

theorem alone_downloadModel (chunks : List (List UInt8)) (v : Volume Path) :
    ∃ w : Volume Path, w.read destPath = some chunks.flatten ∧
      Pool.Alone (rules destPath) (⟨chunks, .requesting⟩, ⟨v, false⟩)
        (⟨chunks, .returned⟩, ⟨w, false⟩) := by
  have hempty := v.contents_create destPath.tempPath
  obtain ⟨w, hnames, hw, hstream⟩ :=
    alone_streaming (.new (v.opened destPath.tempPath)) chunks (v.create destPath.tempPath)
      (congrArg List.length hempty).symm
  have htemp : w.read destPath.tempPath = some chunks.flatten := by
    rw [Volume.read, hnames, Volume.names_create]
    exact congrArg some (hw.trans (congrArg (· ++ [] ++ chunks.flatten) hempty))
  obtain ⟨u, hu, hflush⟩ := alone_flushed htemp
  refine ⟨u, hu, .head (Step.resume _ _) (.head (Step.resume _ _) ?_)⟩
  exact hstream.trans hflush

end Alone

section Example

def modelPath : Path := ⟨["models"], .utf8 "qwen.gguf"⟩

def emptyDisk : Disk := ⟨.empty, false⟩

def oldDisk : Disk := ⟨(Volume.empty.create modelPath).write 0 0 [9], false⟩

def lost : Pool Disk Download where
  shared := ⟨((oldDisk.volume.create modelPath.tempPath).write 1 0 [1, 2]).remove modelPath, true⟩
  tasks := [⟨[[1, 2]], .failed⟩]

def mixed : Pool Disk Download where
  shared := ⟨((((Volume.empty.create modelPath.tempPath).create modelPath.tempPath).write 0 0
    [1, 2]).rename modelPath.tempPath modelPath).write 0 0 [3], false⟩
  tasks := [⟨[[3]], .streaming ⟨0, 1, [], []⟩ []⟩, ⟨[[1], [2]], .returned⟩]

section Turns

variable {guard : Disk → Download → List Download → Prop}

def resumes : Nat → Download → Disk → Download × Disk
  | 0, d, s => (d, s)
  | n + 1, d, s => resumes n (d.resume modelPath s).1 (d.resume modelPath s).2

def Admits (guard : Disk → Download → List Download → Prop) (others : List Download) :
    Nat → Download → Disk → Prop
  | 0, _, _ => True
  | n + 1, d, s =>
    guard s d others ∧ Admits guard others n (d.resume modelPath s).1 (d.resume modelPath s).2

theorem admits_all (others : List Download) (n : Nat) (d : Download) (s : Disk) :
    Admits (fun _ _ _ => True) others n d s := by
  induction n generalizing d s with
  | zero => trivial
  | succ n ih => exact ⟨trivial, ih _ _⟩

theorem run_resumes (before after : List Download) (n : Nat) {d : Download} {s : Disk}
    (hguard : Admits guard (before ++ after) n d s) :
    Pool.Run (rules modelPath) guard ⟨s, before ++ d :: after⟩
      ⟨(resumes n d s).2, before ++ (resumes n d s).1 :: after⟩ := by
  induction n generalizing d s with
  | zero => exact .refl
  | succ n ih => exact .head (.step before after (.resume d s) hguard.1) (ih hguard.2)

theorem turn_writes (before after : List Download) (n : Nat) {d : Download} {s : Disk}
    (hguard : guard s d (before ++ after)) :
    Pool.Turn (rules modelPath) guard ⟨s, before ++ d :: after⟩
      ⟨(d.writes n s).2, before ++ (d.writes n s).1 :: after⟩ :=
  .step before after (.writes n d s) hguard

end Turns

/-- The second download is about to create its file when the first one has ended. -/
def arrived : Pool Disk Download where
  shared := ⟨((Volume.empty.create modelPath.tempPath).write 0 0 [1, 2]).rename
    modelPath.tempPath modelPath, false⟩
  tasks := [⟨[[3]], .creating⟩, ⟨[[1], [2]], .returned⟩]

/-- The second download has taken the place of the first one: its `remove_file` has failed, and
its renaming has not. -/
def replaced : Pool Disk Download where
  shared := ⟨((arrived.shared.volume.create modelPath.tempPath).write 1 0 [3]).rename
    modelPath.tempPath modelPath, false⟩
  tasks := [⟨[[3]], .returned⟩, ⟨[[1], [2]], .returned⟩]

theorem arrived_run : Pool.Run (rules modelPath) (Safe modelPath) ⟨emptyDisk, []⟩ arrived := by
  have hfirst : (rules modelPath).start ⟨[[1], [2]], .requesting⟩ := rfl
  have hsecond : (rules modelPath).start ⟨[[3]], .requesting⟩ := rfl
  have hcreating : Admits (Safe modelPath) [] 3 ⟨[[1], [2]], .requesting⟩ emptyDisk :=
    ⟨trivial, Or.inr (by simp), trivial, trivial⟩
  refine .head (.spawn hfirst) ((run_resumes [] [] 3 hcreating).trans ?_)
  refine .head (.spawn hsecond) ((run_resumes [] [_] 1 ⟨trivial, trivial⟩).trans ?_)
  refine (run_resumes [_] [] 4 ⟨trivial, trivial, trivial, trivial, trivial⟩).trans ?_
  refine .head (turn_writes [_] [] 2 trivial) ?_
  exact run_resumes [_] [] 3 ⟨trivial, trivial, trivial, trivial⟩

theorem replaced_run : Pool.Run (rules modelPath) (Safe modelPath) arrived replaced := by
  have hfree : ∀ u ∈ [(⟨[[1], [2]], .returned⟩ : Download)], ¬u.HoldsTemp :=
    List.forall_mem_singleton.mpr id
  refine (run_resumes [] [_] 4 ⟨Or.inr hfree, trivial, trivial, trivial, trivial⟩).trans ?_
  refine .head (turn_writes [] [_] 1 trivial) ?_
  refine (run_resumes [] [_] 2 ⟨trivial, trivial, trivial⟩).trans ?_
  refine .head (.surroundings ⟨true, rfl⟩) ((run_resumes [] [_] 1 ⟨Or.inl rfl, trivial⟩).trans ?_)
  exact .head (.surroundings ⟨false, rfl⟩) (run_resumes [] [_] 1 ⟨trivial, trivial⟩)

theorem lost_run :
    Pool.Run (rules modelPath) (fun _ _ _ => True) ⟨oldDisk, []⟩ lost := by
  have hstart : (rules modelPath).start ⟨[[1, 2]], .requesting⟩ := rfl
  refine .head (.spawn hstart) ((run_resumes [] [] 5 (admits_all _ _ _ _)).trans ?_)
  refine .head (turn_writes [] [] 2 trivial) ((run_resumes [] [] 3 (admits_all _ _ _ _)).trans ?_)
  exact .head (.surroundings ⟨true, rfl⟩) (run_resumes [] [] 1 (admits_all _ _ _ _))

theorem mixed_run :
    Pool.Run (rules modelPath) (fun _ _ _ => True) ⟨emptyDisk, []⟩ mixed := by
  have hfirst : (rules modelPath).start ⟨[[1], [2]], .requesting⟩ := rfl
  have hsecond : (rules modelPath).start ⟨[[3]], .requesting⟩ := rfl
  refine .head (.spawn hfirst) ((run_resumes [] [] 4 (admits_all _ _ _ _)).trans ?_)
  refine .head (.spawn hsecond) ((run_resumes [] [_] 2 (admits_all _ _ _ _)).trans ?_)
  refine (run_resumes [_] [] 3 (admits_all _ _ _ _)).trans ?_
  refine .head (turn_writes [_] [] 2 trivial) ((run_resumes [_] [] 3 (admits_all _ _ _ _)).trans ?_)
  refine (run_resumes [] [_] 3 (admits_all _ _ _ _)).trans ?_
  exact .single (turn_writes [] [_] 1 trivial)

theorem run_damages_model :
    (∃ p, Pool.Run (rules modelPath) (fun _ _ _ => True) ⟨oldDisk, []⟩ p ∧
      ¬Intact modelPath ⟨oldDisk, []⟩ p) ∧
    ∃ p, Pool.Run (rules modelPath) (fun _ _ _ => True) ⟨emptyDisk, []⟩ p ∧
      ¬Intact modelPath ⟨emptyDisk, []⟩ p := by
  refine ⟨⟨lost, lost_run, ?_⟩, ⟨mixed, mixed_run, ?_⟩⟩
  · intro hintact
    have hkept := hintact.kept (by decide)
    revert hkept
    decide
  · intro hintact
    have hread : mixed.shared.volume.read modelPath = some [3, 2] := by decide
    obtain hold | ⟨d, hd, hreturned, hbody⟩ := hintact.complete hread
    · revert hold
      decide
    · simp only [mixed, List.mem_cons, List.not_mem_nil, or_false] at hd
      obtain rfl | rfl := hd
      · cases hreturned
      · revert hbody
        decide

theorem safe_run_intact_example :
    arrived.shared.volume.read modelPath = some [1, 2] ∧
      replaced.shared.volume.read modelPath = some [3] ∧ Intact modelPath arrived replaced :=
  ⟨by decide, by decide, safe_run_intact arrived_run replaced_run⟩

end Example

end Fumiko.LocalAi.Download
