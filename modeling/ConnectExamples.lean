import ConnectExamples.Client.RetryPolicy
import ConnectExamples.Deployment.Run
import ConnectExamples.Go.Budget
import ConnectExamples.Go.Interceptors
import ConnectExamples.Go.Joined
import ConnectExamples.Go.Opaque.Heap
import ConnectExamples.Go.Timeline
import ConnectExamples.Python.Rerun
import ConnectExamples.Rust.Dispatch
import ConnectExamples.Server.Agreement
