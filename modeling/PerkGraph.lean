import PerkGraph.Main
import PerkGraph.Files.Disk
import PerkGraph.Proofs.LeastSelection
import PerkGraph.Proofs.Stability
import PerkGraph.Proofs.PlayOrder
import PerkGraph.Proofs.PoolLedger
import PerkGraph.Proofs.SessionRun
import PerkGraph.Proofs.WhatIf
import PerkGraph.Proofs.TeamStrength
import PerkGraph.Proofs.Withdrawal
import PerkGraph.Proofs.Draft
import PerkGraph.Proofs.TraceRecord
import PerkGraph.Proofs.EffectText
import PerkGraph.Proofs.GateText
import PerkGraph.Proofs.PoolInputs
import PerkGraph.Proofs.Decoration
import PerkGraph.Proofs.SameTeam
import PerkGraph.Proofs.SameMeaning
import PerkGraph.Proofs.CanonicalRecords
import PerkGraph.Proofs.Findings
import PerkGraph.Proofs.DeadNodes
import PerkGraph.Proofs.CleanContracts
import PerkGraph.Proofs.Blocking
import PerkGraph.Proofs.JsonText
import PerkGraph.Proofs.StoredForms
import PerkGraph.Proofs.DiskPlaces
import PerkGraph.Proofs.FileReplacement
import PerkGraph.Proofs.ContractFiles
import PerkGraph.Proofs.SavedSessions
import PerkGraph.Proofs.SessionFiles
import PerkGraph.Proofs.Demotion
import PerkGraph.Proofs.Restoring
import PerkGraph.Proofs.InertEffects
import PerkGraph.Proofs.ExactTotals
import PerkGraph.Proofs.BestPrevention
import PerkGraph.Proofs.ConditionGrammar
import PerkGraph.Proofs.EffectGrammar
import PerkGraph.Proofs.GateGrammar
import PerkGraph.Proofs.Reachability
import PerkGraph.Proofs.ReportedChecks
import PerkGraph.Proofs.EdgeIndex
import PerkGraph.Proofs.Building
import PerkGraph.Proofs.GateMeaning
import PerkGraph.Proofs.ExactArithmetic
import PerkGraph.Proofs.KeptConditions
import PerkGraph.Proofs.Previews
import PerkGraph.Proofs.TextReport
import PerkGraph.Proofs.RosterSlots
import PerkGraph.Proofs.ScanOrder
import PerkGraph.Proofs.InsertionOrder
import PerkGraph.Proofs.SavedConfigs
