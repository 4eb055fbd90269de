import Recolor.Proofs.CommandLine.Input
import Recolor.Proofs.FileTree.Confined
import Recolor.Proofs.Path.Preview
import Recolor.Proofs.Run.ValidSettings

namespace Recolor

/-- The format goes by the ending of a name, so only a file with a name is opened. -/
def Picture.Codec.ReadsNamed (codec : Picture.Codec) : Prop :=
  ∀ p bytes, codec.size? p bytes ≠ none → p.fileName? ≠ none

namespace Png

theorem readsNamed_codec : codec.ReadsNamed := by
  intro p bytes told nameless
  have unnamed : isNamed p = false := by simp [isNamed, Path.extension?, nameless]
  exact told (if_neg (by simp [unnamed]))

theorem isNamed_preview {p : Path} (whole : '/' ∉ (p.stem?.getD "output").toList) :
    isNamed p.preview = true := by
  have name : p.stem?.getD "output" ++ "_preview.png" =
      p.stem?.getD "output" ++ "_preview" ++ "." ++ "png" := by
    rw [← String.toList_inj]
    simp
  have ending : p.preview.extension? = some "png" := by
    rw [Path.preview, Path.extension?, Path.fileName?_previewIn _ whole, name, Option.bind_some,
      Path.splitName_append (by simp) (by decide)]
  rw [isNamed, ending]
  decide +kernel

end Png

namespace Workspace

variable {w : Workspace} {devices : Devices} {i : Invocation} {p : Path}

theorem runWith_of_unprepared {code : UInt8} (nonzero : code ≠ 0)
    (h : FailsWith code (w.prepare devices.codec i)) :
    (w.runWith devices i).exitCode ≠ 0 ∧ (w.runWith devices i).tree = w.tree := by
  obtain ⟨e, rfl, run⟩ := exists_runWith_of_unprepared h
  rw [run]
  exact ⟨nonzero, rfl⟩

theorem deliverPicture_ends (w : Workspace) (devices : Devices) (i : Invocation) (m : Mosaic)
    (picture : Picture) :
    let saved := w.storePicture devices i.previewPath picture
    (w.deliverPicture devices i m picture).tree = saved.1 ∧
      ((w.deliverPicture devices i m picture).exitCode = 0 ↔
        saved.2 = true ∧ devices.print (savedLine i.previewPath m picture) = none) := by
  intro saved
  cases written : saved.2 with
  | false =>
    have run : w.deliverPicture devices i m picture =
        .failed saved.1 (warnings i m) (.unsaved i.previewPath) :=
      if_neg (Bool.eq_false_iff.mp written)
    rw [run]
    exact ⟨rfl, iff_of_false (show (1 : UInt8) ≠ 0 by decide) nofun⟩
  | true =>
    have run : w.deliverPicture devices i m picture =
        .ofPrint saved.1 (warnings i m) (savedLine i.previewPath m picture) .unprinted
          (devices.print (savedLine i.previewPath m picture)) := if_pos written
    rw [run]
    cases devices.print (savedLine i.previewPath m picture) with
    | none => exact ⟨rfl, iff_of_true rfl ⟨rfl, rfl⟩⟩
    | some part => exact ⟨rfl, iff_of_false (show (134 : UInt8) ≠ 0 by decide) nofun⟩

theorem runWith_preview_cases (w : Workspace) (devices : Devices)
    (verb : i.task.verb = .preview) (own : i.source.output = none) :
    (w.SettingsFail i ∨ w.PictureFails devices.codec i.source.input) ∧
        (w.runWith devices i).exitCode ≠ 0 ∧ (w.runWith devices i).tree = w.tree ∨
      ¬ (w.SettingsFail i ∨ w.PictureFails devices.codec i.source.input) ∧
        ∃ m picture, let saved := w.storePicture devices i.source.input.preview picture
          (w.runWith devices i).tree = saved.1 ∧
            ((w.runWith devices i).exitCode = 0 ↔ saved.2 = true ∧
              devices.print (savedLine i.source.input.preview m picture) = none) := by
  rcases w.prepare_cases devices.codec i with
    ⟨fail, failed⟩ | ⟨-, fail, failed⟩ | ⟨settled, seen, s, m, prepares⟩
  · exact .inl ⟨.inl fail, runWith_of_unprepared (by decide) failed⟩
  · exact .inl ⟨.inr fail, runWith_of_unprepared (by decide) failed⟩
  · cases task : i.task with
    | preview scale =>
      obtain ⟨picture, made⟩ := product_preview (w := w) (s := s) prepares.woven scale
      have place : i.previewPath = i.source.input.preview := by
        rw [Invocation.previewPath, own]
        rfl
      have run : w.runWith devices i = w.deliverPicture devices i m picture := by
        simp only [runWith, prepares.prepared, task, made, deliver]
      refine .inr ⟨not_or.mpr ⟨settled, seen⟩, m, picture, ?_⟩
      rw [run, ← place]
      exact w.deliverPicture_ends devices i m picture
    | _ => cases task ▸ verb

theorem storePicture_eq_write (confined : devices.write.IsConfined) (w : Workspace) (p : Path)
    (picture : Picture) :
    ∃ (write : FileTree.Writer) (bytes : ByteArray), write.IsConfined ∧
      w.storePicture devices p picture = write w.tree w.here p bytes := by
  unfold storePicture
  cases devices.codec.encode? p picture with
  | some bytes => exact ⟨devices.write, bytes, confined, rfl⟩
  | none => exact ⟨_, ByteArray.empty, FileTree.Writer.isConfined_makeParents, rfl⟩

theorem read?_of_not_pictureFails {codec : Picture.Codec} (named : codec.ReadsNamed)
    (seen : ¬ w.PictureFails codec p) :
    p.fileName? ≠ none ∧ ∃ bytes, w.tree.read? w.here p = some bytes := by
  obtain ⟨bytes, read⟩ := Option.ne_none_iff_exists'.mp fun unread => seen (.unread unread)
  exact ⟨named p bytes fun unsized => seen (.unsized read unsized), bytes, read⟩

theorem preview_leaves_input :
    (∀ text, let p := Path.ofText text
      p.preview.components ≠ p.components ∧
      (∃ directory stem, p.preview.components = directory ++ [stem ++ "_preview.png"]) ∧
      (∀ name, p.fileName? = some name → ∃ parent, p.parent? = some parent ∧
        p.components = parent.components ++ [name] ∧ p.preview.parent? = some parent ∧
        p.preview.components =
          parent.components ++ [(Path.splitName name).1 ++ "_preview.png"]) ∧
      ∀ picture, Png.codec.encode? p.preview picture = some (Png.encode picture)) ∧
    -- A name that is no text is in no `Path`; its directory is known, and the stem if that is text.
    (∀ (directory : Path) (stem : Option String), '/' ∉ (stem.getD "output").toList →
      (Path.previewIn directory stem).components =
        directory.components ++ [stem.getD "output" ++ "_preview.png"]) ∧
    FileTree.Writer.IsConfined FileTree.store ∧ Png.codec.ReadsNamed ∧
    ∀ (w : Workspace) (devices : Devices), devices.write.IsConfined → devices.codec.ReadsNamed →
      ∀ words i, CommandLine.read words = .ok i → i.task.verb = .preview →
        i.source.output = none →
      let o := w.runWordsWith devices words
      let p := i.source.input
      o.tree.read? w.here p = w.tree.read? w.here p ∧
      (∀ place, w.tree.resolve w.here p = .ok place →
        o.tree.file? place = w.tree.file? place) ∧
      ((w.SettingsFail i ∨ w.PictureFails devices.codec p) ∧ o.exitCode ≠ 0 ∧ o.tree = w.tree ∨
        ¬ (w.SettingsFail i ∨ w.PictureFails devices.codec p) ∧
          ∃ m picture, let saved := w.storePicture devices p.preview picture
            (∀ bytes, devices.codec.encode? p.preview picture = some bytes →
              saved = devices.write w.tree w.here p.preview bytes) ∧
            o.tree = saved.1 ∧
            (o.exitCode = 0 ↔ saved.2 = true ∧
              devices.print (savedLine p.preview m picture) = none)) := by
  refine ⟨fun text => ?_, fun _ _ => Path.components_previewIn _, FileTree.Writer.isConfined_store,
    Png.readsNamed_codec, fun w devices confined reads words i accepted verb own => ?_⟩
  · have whole := Path.slash_not_mem_stem? text
    exact ⟨Path.components_preview_ne _ whole, ⟨_, _, Path.components_previewIn _ whole⟩,
      fun name named => Path.exists_parent_preview named whole,
      fun picture => if_pos (Png.isNamed_preview whole)⟩
  have run : w.runWordsWith devices words = w.runWith devices i := by rw [runWordsWith, accepted]
  obtain ⟨text, input⟩ := CommandLine.exists_text_of_read accepted
  have whole : '/' ∉ (i.source.input.stem?.getD "output").toList :=
    input ▸ Path.slash_not_mem_stem? text
  simp only [run]
  rcases w.runWith_preview_cases devices verb own with
    ⟨fail, code, same⟩ | ⟨fine, m, picture, tree, code⟩
  · rw [same]
    exact ⟨rfl, fun _ _ => rfl, .inl ⟨fail, code, rfl⟩⟩
  · obtain ⟨named, bytes, there⟩ := read?_of_not_pictureFails reads (not_or.mp fine).2
    obtain ⟨write, content, confined, stored⟩ :=
      storePicture_eq_write confined w i.source.input.preview picture
    have other := Path.fileName?_preview_ne i.source.input whole
    refine ⟨?_, fun place found => ?_, .inr ⟨fine, m, picture, fun bytes told => ?_, tree, code⟩⟩
    · rw [tree, stored, confined.read?_of_other_name there named other, there]
    · rw [FileTree.read?, found] at there
      rw [tree, stored]
      exact confined.file?_of_other_name found there named other
    · rw [storePicture, told]

theorem preview_leaves_input_like_preview :
    let p := Path.ofText "art//a_preview.png"
    let words := ["preview", "art//a_preview.png"]
    let i : Invocation := ⟨.preview 1, ⟨p, none, none, none, none, false, false, none⟩, false, none⟩
    let picture := Png.encode (Picture.filled 1 1 Color.white)
    let w : Workspace :=
      ⟨⟨[(["art"], .directory), (["art", "a_preview.png"], .file picture)]⟩, [], none, none⟩
    let o := w.runWordsWith Devices.plain words
    p.fileName? = some "a_preview.png" ∧ p.preview.components = ["art", "a_preview_preview.png"] ∧
      (Path.previewIn ⟨false, ["art"]⟩ none).components = ["art", "output_preview.png"] ∧
      CommandLine.read words = .ok i ∧ o.exitCode = 0 ∧
      o.tree.read? w.here p = some picture ∧
      o.tree.file? ["art", "a_preview.png"] = some picture ∧
      ∃ preview, FileTree.store w.tree w.here p.preview (Png.encode preview) = (o.tree, true) := by
  intro p words i picture w o
  obtain ⟨paths, nameless, confined, reads, run⟩ := preview_leaves_input
  have named : p.fileName? = some "a_preview.png" := by decide +kernel
  obtain ⟨-, -, beside, encoded⟩ := paths "art//a_preview.png"
  obtain ⟨parent, above, -, -, components⟩ := beside _ named
  have directory : p.parent? = some ⟨false, ["art"]⟩ := by decide +kernel
  cases above.symm.trans directory
  have accepted : CommandLine.read words = .ok i := by decide +kernel
  have success : o.exitCode = 0 := by decide +kernel
  have found : w.tree.resolve w.here p = .ok ["art", "a_preview.png"] := by decide +kernel
  obtain ⟨read, file, ⟨-, code, -⟩ | ⟨-, m, preview, stored, tree, code⟩⟩ :=
    run w Devices.plain confined reads words i accepted rfl rfl
  · exact absurd success code
  · have written := (code.mp success).1
    rw [stored _ (encoded preview)] at tree written
    refine ⟨named, components.trans (by decide +kernel), nameless _ none (by decide), accepted,
      success, read.trans ?_, (file _ found).trans rfl, preview, Prod.ext tree.symm written⟩
    rw [FileTree.read?, found]
    rfl

end Workspace

end Recolor
