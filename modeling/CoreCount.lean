import CoreCount.Main
import CoreCount.Os.FileSystem
import CoreCount.Proofs.AnswersAsked
import CoreCount.Proofs.AsciiPieces
import CoreCount.Proofs.CheckedArithmetic
import CoreCount.Proofs.CommandGrammar
import CoreCount.Proofs.CommandItems
import CoreCount.Proofs.CommandReading
import CoreCount.Proofs.Completion
import CoreCount.Proofs.CoreMasks
import CoreCount.Proofs.CoreProcessors
import CoreCount.Proofs.DecimalText
import CoreCount.Proofs.Delivery
import CoreCount.Proofs.DisplayLevels
import CoreCount.Proofs.EmptyReads
import CoreCount.Proofs.ExactCounts
import CoreCount.Proofs.FailureReport
import CoreCount.Proofs.FileIndependence
import CoreCount.Proofs.JoinedTexts
import CoreCount.Proofs.LeadingNumber
import CoreCount.Proofs.LineByLine
import CoreCount.Proofs.LineBreaks
import CoreCount.Proofs.LineEnds
import CoreCount.Proofs.Lines
import CoreCount.Proofs.MemoizedCount
import CoreCount.Proofs.NumberParts
import CoreCount.Proofs.ParseMeaning
import CoreCount.Proofs.Report
import CoreCount.Proofs.SharedMemo
import CoreCount.Proofs.SmpFallback
import CoreCount.Proofs.StrategyOutcomes
import CoreCount.Proofs.StrategyRuns
import CoreCount.Proofs.ThreadRatio
import CoreCount.Session
import CoreCount.Strategy.Target
