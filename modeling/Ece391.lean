import Ece391.Library.Run
import Ece391.Library.Footprint
import Ece391.Library.LinkedList
import Ece391.Library.Cursor
import Ece391.Library.Traced
import Ece391.Library.Numerals
import Ece391.ModeX.Panning
import Ece391.ModeX.ShowScreen
import Ece391.ModeX.PlayerWindow
import Ece391.ModeX.Fruits
import Ece391.TuxDriver.Link
import Ece391.TuxDriver.Receiving
import Ece391.TuxDriver.Transmitting
import Ece391.TuxDriver.LedStream
import Ece391.BlinkDriver.Synchronised
import Ece391.Kernel.LineBuffer
import Ece391.Kernel.TerminalLines
import Ece391.Kernel.FileStream
import Ece391.Kernel.DriverCalls
import Ece391.Kernel.VideoWindow
import Ece391.Kernel.RootShells
import Ece391.Kernel.FileNames
import Ece391.Kernel.ImageReads
import Ece391.Kernel.ReadContract
import Ece391.Kernel.DirectoryListing
import Ece391.Kernel.EditedLines
import Ece391.Kernel.CommandLine
import Ece391.Kernel.Arguments
import Ece391.Kernel.ExecuteAcceptance
import Ece391.Kernel.ImageCopy
import Ece391.Kernel.TerminalOutput
import Ece391.Kernel.RtcRates
import Ece391.Kernel.PrintfFormat
import Ece391.Kernel.Memcpy
import Ece391.Kernel.Scrolling
import Ece391.Kernel.VidmapPointer
import Ece391.Kernel.SyscallHandler
import Ece391.Kernel.Redraw
import Ece391.BlinkDriver.ReturnValues
import Ece391.ModeX.BlockPixels
import Ece391.ModeX.PlaneReads
import Ece391.ModeX.StatusBar
import Ece391.ModeX.KeyboardThread
import Ece391.ModeX.WormRuns
import Ece391.Programs.Cat
import Ece391.Programs.Ls
import Ece391.Programs.Grep
import Ece391.Kernel.BlockOps
import Ece391.ModeX.WinnableMazes
import Ece391.Programs.Fish
import Ece391.Kernel.Interrupts
import Ece391.TuxDriver.GameClock
import Ece391.TuxDriver.GameButtons
import Ece391.Programs.SystemCalls
