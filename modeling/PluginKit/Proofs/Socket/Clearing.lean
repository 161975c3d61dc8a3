import PluginKit.Proofs.Socket.Repeating

/-!
# What removing socket files leaves

Removing takes away entries that the paths themselves name, and nothing else. It stops at the first
path whose entry cannot be removed in its turn; what only the paths behind it name is not touched.
-/

namespace PluginKit

namespace Socket

open FileSystem

variable {plugin : String} {fs fs' : FileSystem} {sockets : List Path}

/-- Nothing is new, and what is gone is no directory and is what one of the paths names, where a link
at the end of a path is what the path names. -/
structure Takes (fs fs' : FileSystem) (sockets : List Path) : Prop where
  grows : Grows fs' fs
  umask : fs'.umask = fs.umask
  directories : ∀ {loc e}, fs.get? loc = some e → e.isDirectory = true → fs'.get? loc = some e
  unnamed : ∀ {loc e}, fs.get? loc = some e →
    (∀ p ∈ sockets, fs.lookupLink false p ≠ .ok (loc, e)) → fs'.get? loc = some e

theorem Removes.umask (h : Removes fs sockets fs') : fs'.umask = fs.umask := by
  induction h with
  | done => rfl
  | removed hunlink hlater ih =>
      obtain ⟨loc, e, -, -, rfl⟩ := unlink_ok hunlink
      exact ih
  | missing hunlink hlater ih => exact ih

theorem Removes.takes (h : Removes fs sockets fs') : Takes fs fs' sockets where
  grows := h.grows
  umask := h.umask
  directories := by
    intro loc e there hdirectory
    rcases h.kept_or there with hkept | ⟨hfile, -⟩
    · exact hkept
    · rw [hdirectory] at hfile
      contradiction
  unnamed := by
    intro loc e there hunnamed
    rcases h.kept_or there with hkept | ⟨-, p, hp, hnamed⟩
    · exact hkept
    · exact absurd hnamed (hunnamed p hp)

/-- Paths behind those that were reached take nothing. -/
theorem Takes.append (h : Takes fs fs' sockets) (later : List Path) :
    Takes fs fs' (sockets ++ later) where
  grows := h.grows
  umask := h.umask
  directories := h.directories
  unnamed := by
    intro loc e there hunnamed
    exact h.unnamed there fun p hp => hunnamed p (List.mem_append_left later hp)

theorem takes_removeAll (plugin : String) (fs : FileSystem) (sockets : List Path) :
    Takes fs (removeAll plugin fs sockets).1 sockets := by
  rcases hremoved : removeAll plugin fs sockets with ⟨fs', report | ⟨⟩⟩
  · obtain ⟨before, socket, later, cause, rfl, hbefore, -⟩ := removes_of_failure hremoved
    exact hbefore.takes.append (socket :: later)
  · exact (removeAll_eq_ok_iff.mp hremoved).takes

/-- Removing takes only what the paths name, and no directory. If it succeeds, nothing is at any of
the paths, and removing again changes nothing. If it fails, it fails at the first path whose entry
cannot be removed when its turn comes: nothing is at the paths before it, and all that was taken is
what those name. -/
theorem removeAll_takes_named (plugin : String) (fs : FileSystem) (sockets : List Path) :
    let r := removeAll plugin fs sockets
    Takes fs r.1 sockets ∧
      (r.2 = .ok () →
        (∀ p ∈ sockets, Absent r.1 p) ∧ ∀ again, removeAll again r.1 sockets = (r.1, .ok ())) ∧
      ∀ report, r.2 = .error report →
        ∃ before socket later cause, sockets = before ++ socket :: later ∧
          Removes fs before r.1 ∧ r.1.unlink socket = .error cause ∧ cause ≠ .notFound ∧
          report = cleanupReport plugin socket cause ∧ (∀ p ∈ before, Absent r.1 p) ∧
          Takes fs r.1 before := by
  intro r
  refine ⟨takes_removeAll plugin fs sockets, ?succeeds, ?fails⟩
  case succeeds =>
    intro hok
    have hremoved : removeAll plugin fs sockets = (r.1, .ok ()) := Prod.ext rfl hok
    have habsent : ∀ p ∈ sockets, Absent r.1 p := (absent_of_removeAll hremoved).2
    exact ⟨habsent, fun again => removeAll_of_absent habsent⟩
  case fails =>
    intro report herror
    have hremoved : removeAll plugin fs sockets = (r.1, .error report) := Prod.ext rfl herror
    obtain ⟨before, socket, later, cause, hlist, hbefore, hunlink, hcause, hreport⟩ :=
      removes_of_failure hremoved
    have hagain : removeAll plugin fs before = (r.1, .ok ()) := removeAll_eq_ok_iff.mpr hbefore
    exact ⟨before, socket, later, cause, hlist, hbefore, hunlink, hcause, hreport,
      (absent_of_removeAll hagain).2, hbefore.takes⟩

/-- A path of a link, twice, one behind the link, and that of the directory it leads to. -/
def entangledPaths : List Path :=
  ["cpu.sock", "cpu.sock/cpu.sock", "./cpu.sock", "real"].map Path.ofString

/-- The link is taken, and the directory that it led to is where removing fails. -/
theorem removeAll_takes_named_entangled :
    (removeAll "cpu" entangled entangledPaths).1.isDirectory (.ofString "real") = true ∧
      ∃ before socket later cause, entangledPaths = before ++ socket :: later ∧
        (removeAll "cpu" entangled entangledPaths).2 =
          .error (cleanupReport "cpu" socket cause) ∧
        ∀ p ∈ before, Absent (removeAll "cpu" entangled entangledPaths).1 p := by
  refine ⟨by decide +kernel, ?_⟩
  have hfails : (removeAll "cpu" entangled entangledPaths).2.isOk = false := by decide +kernel
  cases houtcome : (removeAll "cpu" entangled entangledPaths).2 with
  | ok =>
      rw [houtcome] at hfails
      contradiction
  | error report =>
      obtain ⟨before, socket, later, cause, hlist, -, -, -, rfl, habsent, -⟩ :=
        (removeAll_takes_named "cpu" entangled entangledPaths).2.2 report houtcome
      exact ⟨before, socket, later, cause, hlist, rfl, habsent⟩

end Socket

end PluginKit
