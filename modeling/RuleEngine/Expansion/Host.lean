/-
  RuleEngine/Expansion/Host.lean
  ==============================
  **A host of expansions.**

  A host keeps the rule types of a directory installed.  Reloading installs every
  artifact that is there and retires the keys whose artifact is gone: a key that had
  an owner before the expansions gets it back, any other is free again.  With hot
  reload the host polls the directory and reloads when something changed.
-/
import RuleEngine.Expansion.Install
import RuleEngine.Expansion.Scanner

namespace RuleEngine

/-- The expansions of a directory and what they displaced. -/
structure ExpansionHost where
  directory : String
  /-- The units of fuel that a call of a guest may use. -/
  fuel : Nat
  scanner? : Option Scanner := none
  /-- The artifact that provides each key now. -/
  owned : List (String × String) := []
  /-- The owners that keys had before expansions took them. -/
  formers : List (String × Factory) := []

namespace ExpansionHost

def ownedByKey (h : ExpansionHost) : List (String × String) :=
  h.owned.mergeSort fun a b => a.1 ≤ b.1

/-- Take note of an installed expansion: which artifact provides the key, and who
    had it if no expansion did. -/
def claim (before : List (String × String))
    (claimed : List (String × String) × List (String × Factory)) (i : Installed) :
    List (String × String) × List (String × Factory) :=
  let (owned, formers) := claimed
  let known := (lookupEntry i.typeKey before).isSome || (lookupEntry i.typeKey owned).isSome
  let formers :=
    match i.displaced? with
    | some displaced =>
      if !known && (lookupEntry i.typeKey formers).isNone then
        insertEntry i.typeKey displaced formers
      else formers
    | none => formers
  (insertEntry i.typeKey i.path owned, formers)

def retire (r : Registry) (formers : List (String × Factory)) :
    List (String × String) → List Notice × List (String × Factory) × Registry
  | [] => ([], formers, r)
  | (key, path) :: rest =>
    let former? := lookupEntry key formers
    let r := match former? with
      | some former => r.insert key former
      | none => r.erase key
    let (notices, formers, r) := retire r (eraseEntry key formers) rest
    (.expansionGone key path former?.isSome :: notices, formers, r)

/-- Install everything in the directory and retire the keys whose artifact is gone. -/
def reload (h : ExpansionHost) (e : Engine) (tree : FileTree) :
    InstallReport × ExpansionHost × Engine :=
  let (report, e) := e.installDirectory tree h.directory h.fuel
  let (owned, formers) := report.installed.foldl (claim h.owned) ([], h.formers)
  let gone := h.ownedByKey.filter fun o => (lookupEntry o.1 owned).isNone
  let (notices, formers, registry) := retire e.registry formers gone
  (report, { h with owned, formers }, { e with registry }.reportAll notices)

/-- Reload if a scan is due and finds a change. -/
def poll (h : ExpansionHost) (e : Engine) (tree : FileTree) (now : Nat) :
    Option InstallReport × ExpansionHost × Engine :=
  match h.scanner? with
  | none => (none, h, e)
  | some scanner =>
    if scanner.isDue now then
      let (changes, scanner) := scanner.scan tree now
      let h := { h with scanner? := some scanner }
      let e := e.reportAll (scanner.notices changes)
      if changes.any then
        let (report, h, e) := h.reload (e.report (.artifactsChanged h.directory)) tree
        (some report, h, e)
      else (none, h, e)
    else (none, h, e)

structure Settings where
  enabled : Bool
  directory : String
  hotReload : Bool
  interval : Nat
  fuel : Nat
deriving DecidableEq, Repr

/-- A host as settings say, with what is on disk installed. -/
def create (s : Settings) (e : Engine) (tree : FileTree) : ExpansionHost × Engine :=
  let host : ExpansionHost := { directory := s.directory, fuel := s.fuel }
  if !s.enabled then (host, e.report .expansionsDisabled)
  else
    let host := { host with
      scanner? := if s.hotReload then some (.create tree s.directory s.interval) else none }
    let (_, host, e) := host.reload (e.report (.loadingFrom s.directory)) tree
    (host, e)

end ExpansionHost

end RuleEngine
